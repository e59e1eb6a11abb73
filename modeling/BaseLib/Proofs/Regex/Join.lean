import BaseLib.Proofs.Regex.Literal

namespace BaseLib.Regex

open Library Session

variable {s : Session} {r : Regex} {t w : List Char} {fs : List Found}

theorem pieces_ne_nil (r : Regex) (t : List Char) (last : Nat) (fs : List Found) :
    r.pieces t last fs ≠ [] := by
  cases fs <;> simp [pieces]

theorem join_pieces (hr : r.program.groups = 0) (w : List Char) (hfs : ∀ m ∈ fs, m.start ≤ m.stop)
    (last : Nat) :
    Text.join w (r.pieces t last fs) = splice t last (fs.map fun m => m.replacedWith r t w) := by
  induction fs generalizing last with
  | nil => exact List.intercalate_singleton
  | cons m fs ih =>
      have ih := ih (fun x hx => hfs x (List.mem_cons_of_mem m hx)) m.stop
      have hne := pieces_ne_nil r t m.stop fs
      rw [List.map_cons, splice_cons (hfs m List.mem_cons_self), ← ih, pieces, hr, List.range_zero,
        List.filterMap_nil, List.singleton_append, Text.join, List.intercalate_cons_of_ne_nil hne]
      rfl

theorem length_pieces (hr : r.program.groups = 0) (t : List Char) (last : Nat) (fs : List Found) :
    (r.pieces t last fs).length = fs.length + 1 := by
  induction fs generalizing last with
  | nil => rfl
  | cons m fs ih => simp [pieces, hr, ih]

theorem length_scanFrom (p : Program) (text : Array Char) (fuel start : Nat) (advance : Bool) :
    (p.scanFrom text fuel start advance).length ≤ fuel := by
  induction fuel generalizing start advance with
  | zero => exact Nat.le_refl 0
  | succ fuel ih =>
      rw [Program.scanFrom]
      split
      · exact Nat.zero_le _
      · exact Nat.succ_le_succ (ih _ _)

theorem split_succ (r : Regex) (t : List Char) (n : Nat) :
    r.split t (n + 1) = r.pieces t 0 ((r.program.scan t.toArray 0).take n) := by
  cases n with
  | zero => rfl
  | succ n => rfl

variable {id : Nat} {o : Value}

theorem exec_splitBy (h : s.store[id]? = some (.regex r o)) (t : List Char) (k : Nat) :
    s.exec (Methods.call (.ref id) "Split" [.text t, .int k]) =
      (.ok (.ref s.store.size), s.grow (.array ((r.split t k).map .text))) := by
  refine (exec_call h rfl _).trans ?_
  have hk : ¬ (k : Int) < 0 := by omega
  show s.exec (do
    if (k : Int) < 0 then fail (.outOfRange "count")
    newArray ((r.split t (k : Int).toNat).map .text)) = _
  rw [if_neg hk]
  rfl

theorem exec_replaceFirst (h : s.store[id]? = some (.regex r o)) (t w : List Char) (n : Nat) :
    ∃ u, s.exec (Methods.call (.ref id) "Replace" [.text t, .text (doubled w), .int n]) =
      (.ok (.text (splice t 0 (((r.program.scan t.toArray 0).take n).map fun m =>
        m.replacedWith r t w))), u) := by
  have hcall : s.exec (Methods.call (.ref id) "Replace" [.text t, .text (doubled w), .int n]) =
      s.exec (Patterns.replace r (.text t) (.text (doubled w)) (.int n) (.int (0 : Nat))) :=
    (exec_call h rfl _).trans rfl
  rw [hcall]
  cases n with
  | zero => exact ⟨s, (exec_bind_ok (exec_checkedInput s (Nat.zero_le _)) _).trans rfl⟩
  | succ n =>
      have hn : ((n + 1 : Nat) : Int) ≠ 0 := by omega
      obtain ⟨u, hu⟩ := exec_replacedBy_doubled (t := t) s w ((r.scanned t 0).take (n + 1))
      refine ⟨u, ?_⟩
      rw [exec_replace s (Nat.zero_le _) (by simp) hn]
      refine Eq.trans hu ?_
      rw [scanned, ← List.map_take, List.map_map]
      rfl

/-- Replacing by a text gives what splitting and joining with that text gives. -/
def Rejoins (s : Session) (id : Nat) (t w : List Char) (limit pieces : List Value) : Prop :=
  ∃ x u parts v,
    s.exec (Methods.call (.ref id) "Replace" (.text t :: .text (doubled w) :: limit)) =
        (.ok (.text x), u) ∧
      s.exec (Methods.call (.ref id) "Split" (.text t :: pieces)) = (.ok parts, v) ∧
      v.exec (Catalogue.call "NString.Join" [.text w, parts]) = (.ok (.text x), v)

theorem exec_join_pieces (hr : r.program.groups = 0) (hs : 2 * t.length + 7 ≤ s.steps)
    (hfs : fs.Sublist (r.program.scan t.toArray 0)) (w : List Char) :
    (s.grow (.array ((r.pieces t 0 fs).map .text))).exec
        (Catalogue.call "NString.Join" [.text w, .ref s.store.size]) =
      (.ok (.text (splice t 0 (fs.map fun m => m.replacedWith r t w))),
        s.grow (.array ((r.pieces t 0 fs).map .text))) := by
  have hlength := hfs.length_le
  have hscan := length_scanFrom r.program t.toArray (2 * (t.toArray.size - 0) + 2) 0 false
  have hsteps : (r.pieces t 0 fs).length + 4 ≤ s.steps := by
    rw [length_pieces hr]
    rw [← Program.scan, List.size_toArray] at hscan
    omega
  have hinside : ∀ m ∈ fs, m.start ≤ m.stop := fun m hm => scanned_inside r t 0 m (hfs.mem hm)
  rw [exec_join (store_grow s _) hsteps, join_pieces hr w hinside]

end BaseLib.Regex
