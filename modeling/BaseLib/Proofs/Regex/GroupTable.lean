import BaseLib.Proofs.Number.RoundTrip
import BaseLib.Proofs.Regex.Listing
import BaseLib.Proofs.Regex.Numbering
import Mathlib.Data.List.Sort

namespace BaseLib.Regex

open Library Session

variable {s u : Session} {r : Regex} {m : Match} {v : Value} {g k : Nat} {name : List Char}

def isNamed (r : Regex) (g : Nat) : Bool := r.program.names.any (·.2 == g)

theorem isNamed_iff : r.isNamed g = true ↔ g ∈ r.program.names.map Prod.snd := by
  simp [isNamed]

theorem filterMap_range' (p : Nat → Bool) (n : Nat) :
    ((List.range n).filterMap fun i => if p (i + 1) then some (i + 1) else none) =
      (List.range' 1 n).filter p := by
  rw [← List.filterMap_eq_filter, List.range'_eq_map_range, List.filterMap_map]
  refine List.filterMap_congr fun i _ => ?_
  simp [Option.guard, Nat.add_comm]

theorem unnamed_eq (r : Regex) :
    r.unnamed = (List.range' 1 r.program.groups).filter fun g => !r.isNamed g := by
  rw [← filterMap_range', unnamed]
  refine congrArg (List.filterMap · _) (funext fun i => ?_)
  cases h : r.isNamed (i + 1) <;> rw [isNamed] at h <;> rw [h] <;> rfl

theorem order_eq (r : Regex) :
    r.order = 0 :: (r.unnamed ++ (List.range' 1 r.program.groups).filter r.isNamed) := by
  rw [← filterMap_range' r.isNamed]
  rfl

theorem order_perm (r : Regex) : r.order.Perm (List.range (r.program.groups + 1)) := by
  rw [order_eq, unnamed_eq, List.range_eq_range', List.range'_succ]
  exact .cons 0 (List.perm_append_comm.trans (List.filter_append_perm r.isNamed _))

theorem filter_isNamed (h : r.program.Numbered) :
    (List.range' 1 r.program.groups).filter r.isNamed = r.program.names.map Prod.snd := by
  refine List.Pairwise.eq_of_mem_iff ((List.pairwise_lt_range' _).filter _) h.ordered fun g => ?_
  rw [List.mem_filter, isNamed_iff, and_iff_right_iff_imp, List.mem_range'_1]
  intro hg
  obtain ⟨e, he, rfl⟩ := List.mem_map.mp hg
  have hbounds := h.bounds e he
  omega

theorem nameOf_eq (h : r.program.Numbered) {e : String × Nat} (he : e ∈ r.program.names) :
    r.nameOf e.2 = e.1.toList := by
  rw [nameOf]
  cases hfind : r.program.names.find? (·.2 == e.2) with
  | none => exact absurd (List.find?_eq_none.mp hfind e he) (by simp)
  | some e' =>
      have hnumbers : (r.program.names.map Prod.snd).Nodup := h.ordered.imp Nat.ne_of_lt
      have hsame : e'.2 = e.2 := by simpa using List.find?_some hfind
      rw [List.inj_on_of_nodup_map hnumbers (List.mem_of_find?_eq_some hfind) he hsame]
      rfl

theorem groupNames_eq (h : r.program.Numbered) :
    r.groupNames = (List.range (r.unnamed.length + 1)).map Decimal.digits ++
      r.program.names.map fun e => e.1.toList := by
  have hlength : (0 :: r.unnamed).length = r.unnamed.length + 1 := rfl
  rw [groupNames, order_eq, filter_isNamed h, ← List.cons_append, ← hlength, List.drop_left, List.map_map]
  refine congrArg _ (List.map_congr_left fun e he => ?_)
  exact nameOf_eq h he

theorem digits_injective : Function.Injective Decimal.digits := by
  intro a b h
  have hvalues := congrArg Text.decimalValue? h
  rw [decimalValue?_digits, decimalValue?_digits] at hvalues
  exact Option.some.inj hvalues

theorem isName_digits (n : Nat) : Text.isName (Decimal.digits n) = false := by
  cases hdigits : Decimal.digits n with
  | nil => exact absurd hdigits (Decimal.digits_ne n)
  | cons c rest =>
      have hc := Decimal.digits_isDigits n c (by simp [hdigits])
      rw [Number.isAsciiDigit, Bool.and_eq_true, decide_eq_true_eq, decide_eq_true_eq] at hc
      have hlow : 48 ≤ c.toNat := hc.1
      have hhigh : c.toNat ≤ 57 := hc.2
      have hstart : Text.canStartName c.toNat = false := by
        rw [Text.canStartName, if_pos (by omega), Text.isLatinLetter]
        simp only [Bool.or_eq_false_iff, Bool.and_eq_false_iff, decide_eq_false_iff_not, beq_eq_false_iff_ne]
        omega
      rw [Text.isName, hstart, Bool.false_and]

theorem groupNames_nodup (h : r.program.Numbered) : r.groupNames.Nodup := by
  rw [groupNames_eq h, List.nodup_append]
  refine ⟨List.nodup_range.map digits_injective, ?_, ?_⟩
  · have htexts : Function.Injective String.toList := fun a b hab => String.toList_inj.mp hab
    have hkeys := h.keys.map htexts
    rwa [List.map_map] at hkeys
  · intro a ha b hb hab
    obtain ⟨n, -, rfl⟩ := List.mem_map.mp ha
    obtain ⟨e, he, rfl⟩ := List.mem_map.mp hb
    have hvalid := h.valid e he
    rw [← hab, isName_digits] at hvalid
    cases hvalid

theorem length_groupNames (h : r.program.Numbered) : r.groupNames.length = r.order.length := by
  rw [groupNames_eq h, order_eq, filter_isNamed h]
  simp only [List.length_append, List.length_map, List.length_range, List.length_cons]
  omega

/-- What a group of the program captured in a match; nothing if it took no part. -/
def Match.captured (m : Match) (g : Nat) : Option (List Char) := do
  let f ← m.found
  let (a, b) ← if g = 0 then some (f.start, f.stop) else f.marks.span? g
  return (m.text.drop a).take (b - a)

/-- The group tells what a group of the program captured, under a name. -/
structure Tells (x : Group) (m : Match) (g : Nat) (name : List Char) : Prop where
  name : x.name = name
  success : x.success = (m.captured g).isSome
  value : x.value = (m.captured g).getD []

theorem tells_lay {f : Found} (hf : m.found = some f) {table : List (Nat × List Char)}
    (htable : ∀ e ∈ table, e.1 ≠ 0) (offset : Nat) :
    List.Forall₂ (fun x e => Tells x m e.1 e.2) (Match.lay m.text f.marks table offset) table := by
  induction table generalizing offset with
  | nil => exact .nil
  | cons e table ih =>
      obtain ⟨hg, htable⟩ := List.forall_mem_cons.mp htable
      rw [Match.lay]
      cases hspan : f.marks.span? e.1 with
      | none => exact .cons ⟨rfl, by simp [Match.captured, hf, hg, hspan, Group.absent],
          by simp [Match.captured, hf, hg, hspan, Group.absent]⟩ (ih htable _)
      | some span => exact .cons ⟨rfl, by simp [Match.captured, hf, hg, hspan],
          by simp [Match.captured, hf, hg, hspan]⟩ (ih htable _)

theorem groupNames_cons (h : r.program.Numbered) : ∃ names, r.groupNames = ['0'] :: names := by
  rw [groupNames_eq h, List.range_succ_eq_map]
  exact ⟨_, rfl⟩

theorem tells_groups (h : m.regex.program.Numbered) :
    List.Forall₂ (fun x e => Tells x m e.1 e.2) m.groups (m.regex.order.zip m.regex.groupNames) := by
  rw [Match.groups]
  cases hf : m.found with
  | none =>
      have hnames := congrArg (List.map Group.absent) (List.map_snd_zip (length_groupNames h).le)
      dsimp only
      rw [← hnames, List.map_map, List.forall₂_map_left_iff, List.forall₂_same]
      intro e _
      exact ⟨rfl, by simp [Match.captured, hf, Group.absent], by simp [Match.captured, hf, Group.absent]⟩
  | some f =>
      obtain ⟨names, hnames⟩ := groupNames_cons h
      rw [hnames, order_eq, List.zip_cons_cons, List.drop_one, List.tail_cons]
      refine .cons ⟨?_, ?_, ?_⟩ (tells_lay hf (fun e he => ?_) f.start)
      · simp [Match.whole, hf]
      · simp [Match.whole, Match.captured, hf]
      · simp [Match.whole, Match.captured, hf]
      · have hmem : e.1 ∈ m.regex.order.tail := by
          rw [order_eq]
          exact (List.of_mem_zip (show (e.1, e.2) ∈ _ from he)).1
        have hnodup : m.regex.order.Nodup := (order_perm m.regex).nodup_iff.mpr List.nodup_range
        rw [order_eq] at hmem hnodup
        exact fun hzero => (List.nodup_cons.mp hnodup).1 (hzero ▸ hmem)

theorem matchObject_newMatch (h : s.exec (Patterns.newMatch m) = (.ok v, u)) : MatchObject u v m := by
  obtain ⟨id, t, ht, -, hobject⟩ := exec_newMatch_object s m
  rw [ht] at h
  cases h
  exact hobject

/-- A value is the object of a match of a regular expression: one that a call has found, one that follows
another, or any that the library makes to list it or to hand it on; later it still is. -/
inductive IsMatchOf (r : Regex) : Session → Value → Match → Prop
  | found {s u : Session} {id start : Nat} {o v : Value} {t : List Char}
    (h : s.store[id]? = some (.regex r o)) (hs : start ≤ t.length)
    (run : s.exec (Methods.call (.ref id) "Match" [.text t, .int start]) = (.ok v, u)) :
    IsMatchOf r u v (r.matchFrom t start)
  | next {s u : Session} {v w : Value} {m : Match} (h : IsMatchOf r s v m) (hm : m.found.isSome = true)
    (run : s.exec (Methods.call v "NextMatch" []) = (.ok w, u)) : IsMatchOf r u w m.next
  | made {s u : Session} {v : Value} {m : Match} (hm : m.regex = r)
    (run : s.exec (Patterns.newMatch m) = (.ok v, u)) : IsMatchOf r u v m
  | later {s u : Session} {v : Value} {m : Match} (h : IsMatchOf r s v m) (hext : Extends s u) :
    IsMatchOf r u v m

theorem regex_next (m : Match) : m.next.regex = m.regex := by
  unfold Match.next
  split
  · rfl
  · split
    · split <;> rfl
    · rfl

theorem IsMatchOf.matchObject (h : IsMatchOf r s v m) : m.regex = r ∧ MatchObject s v m := by
  induction h with
  | @found s u id start o v t h hs run =>
      have hcall : s.exec (Methods.call (.ref id) "Match" [.text t, .int start]) =
          s.exec (Patterns.newMatch (r.matchFrom t start)) :=
        (exec_call h rfl _).trans (exec_bind_ok (exec_checkedInput s hs) _)
      exact ⟨rfl, matchObject_newMatch (hcall.symm.trans run)⟩
  | @next s u v w m h hm run ih =>
      obtain ⟨hregex, hobject⟩ := ih
      obtain ⟨g, -, -, hv, -⟩ := hobject.objects
      cases v with
      | ref id =>
          have hcall : s.exec (Methods.call (.ref id) "NextMatch" []) =
              s.exec (Patterns.newMatch m.next) := by
            refine (exec_call hv rfl []).trans ?_
            change s.exec (if m.found.isSome then Patterns.newMatch m.next else pure (.ref id)) = _
            rw [if_pos hm]
          exact ⟨(regex_next m).trans hregex, matchObject_newMatch (hcall.symm.trans run)⟩
      | _ => cases hv
  | made hm run => exact ⟨hm, matchObject_newMatch run⟩
  | later h hext ih => exact ⟨ih.1, ih.2.extends hext⟩

theorem exists_of_forall₂ {α β : Type} {R : α → β → Prop} {xs : List α} {ys : List β} {y : β}
    (h : List.Forall₂ R xs ys) (hy : ys[k]? = some y) : ∃ x, xs[k]? = some x ∧ R x y := by
  induction h generalizing k with
  | nil => cases hy
  | cons hR _ ih =>
      cases k with
      | zero =>
          cases hy
          exact ⟨_, rfl, hR⟩
      | succ k => exact ih hy

theorem exec_groups (h : MatchObject s v m) :
    ∃ id members items, s.exec (Properties.read v "Groups") = (.ok (.ref id), s) ∧
      s.store[id]? = some (.groups members m.regex.groupNames) ∧ s.items members = items ∧
      List.Forall₂ (fun w x => s.object? w = some (.group x)) items m.groups := by
  obtain ⟨id, members, items, hv, hid, hmembers, hitems⟩ := h.objects
  refine ⟨id, members, items, exec_read_known hv rfl, hid, ?_, hitems⟩
  simp only [Session.items, hmembers]

theorem exec_numberedGroup {members : Nat} {item : Value} (hitem : (s.items members)[k]? = some item)
    (label : Except Fault (List Char)) : s.exec (numberedGroup s members k label) = (.ok item, s) := by
  rw [numberedGroup, if_neg (by omega), Int.toNat_natCast, hitem]
  rfl

theorem exec_item {id members : Nat} {names : List (List Char)} {item : Value}
    (h : s.store[id]? = some (.groups members names)) (hitem : (s.items members)[k]? = some item) :
    s.exec (Methods.call (.ref id) "get_Item" [.int k]) = (.ok item, s) := by
  have hint : s.exec (needInt (.int k)) = (.ok (k : Int), s) := rfl
  refine (exec_call h rfl _).trans ?_
  change s.exec (groupItem members names (.int k)) = _
  rw [groupItem, exec_get_bind, exec_bind_ok hint, exec_numberedGroup hitem]

theorem exec_item_name {id members : Nat} {names : List (List Char)} {item : Value}
    (h : s.store[id]? = some (.groups members names)) (hitem : (s.items members)[k]? = some item)
    (hnames : names.Nodup) (hname : names[k]? = some name) :
    s.exec (Methods.call (.ref id) "get_Item" [.text name]) = (.ok item, s) := by
  obtain ⟨hk, hget⟩ := List.getElem?_eq_some_iff.mp hname
  have hmem : names.contains name = true := List.contains_iff_mem.mpr (hget ▸ List.getElem_mem hk)
  have hplace : names.idxOf name = k := hget ▸ hnames.idxOf_getElem k hk
  refine (exec_call h rfl _).trans ?_
  change s.exec (groupItem members names (.text name)) = _
  rw [groupItem, exec_get_bind]
  dsimp only
  rw [if_pos hmem, hplace, exec_numberedGroup hitem]

theorem exec_groupNames {id : Nat} {o : Value} (h : s.store[id]? = some (.regex r o)) :
    ∃ a u, s.exec (Methods.call (.ref id) "GetGroupNames" []) = (.ok (.ref a), u) ∧
      u.store[a]? = some (.array (r.groupNames.map .text)) := by
  exact ⟨_, _, (exec_call h rfl []).trans rfl, store_grow s _⟩

theorem exec_groupNumbers {id : Nat} {o : Value} (h : s.store[id]? = some (.regex r o)) :
    ∃ a u, s.exec (Methods.call (.ref id) "GetGroupNumbers" []) = (.ok (.ref a), u) ∧
      u.store[a]? = some (.array ((List.range r.groupNames.length).map fun (k : Nat) => .int k)) := by
  exact ⟨_, _, (exec_call h rfl []).trans rfl, store_grow s _⟩

/-- Under each number and under its name a match has one group, which tells what the program's group
captured. -/
theorem IsMatchOf.exec_groups (hm : IsMatchOf r s v m) (hprogram : r.program.Numbered) :
    ∃ id, s.exec (Properties.read v "Groups") = (.ok (.ref id), s) ∧
      ∀ {k : Nat}, k ≤ r.program.groups →
        ∃ g name item x, r.order[k]? = some g ∧ r.groupNames[k]? = some name ∧
          s.exec (Methods.call (.ref id) "get_Item" [.int k]) = (.ok item, s) ∧
          s.exec (Methods.call (.ref id) "get_Item" [.text name]) = (.ok item, s) ∧
          ReadsAs s item x ∧ Tells x m g name := by
  obtain ⟨rfl, hobject⟩ := hm.matchObject
  obtain ⟨id, members, items, hread, hid, hitems, hgroups⟩ := Regex.exec_groups hobject
  refine ⟨id, hread, fun {k} hk => ?_⟩
  have hnumber : k < m.regex.order.length := by
    rw [(order_perm m.regex).length_eq, List.length_range]
    omega
  have hname : k < m.regex.groupNames.length := by
    rw [length_groupNames hprogram]
    exact hnumber
  have hentry : (m.regex.order.zip m.regex.groupNames)[k]? =
      some (m.regex.order[k], m.regex.groupNames[k]) :=
    List.getElem?_zip_eq_some.mpr ⟨List.getElem?_eq_getElem hnumber, List.getElem?_eq_getElem hname⟩
  obtain ⟨x, hx, htells⟩ := exists_of_forall₂ (tells_groups hprogram) hentry
  obtain ⟨item, hitem, hgroup⟩ := exists_of_forall₂ hgroups hx
  rw [← hitems] at hitem
  refine ⟨_, _, item, x, List.getElem?_eq_getElem hnumber, List.getElem?_eq_getElem hname,
    exec_item hid hitem, ?_, readsAs_group hgroup, htells⟩
  exact exec_item_name hid hitem (groupNames_nodup hprogram) (List.getElem?_eq_getElem hname)

/-- The groups of a regular expression that compiles. Its numbers are those of the program, the unnamed
groups first and each kind in the order in which they open in the pattern; its names are distinct; and
a match has under each number and under its name one group, which tells what the program's group captured. -/
theorem groups_numbered {known : CharacterNames} {pattern : List Char} {options : RegexOptions}
    (h : ofPattern known pattern options = .ok r) :
    (r.program.body.captures = List.range' 1 r.program.groups ∧
      r.order = 0 :: (r.program.body.captures.filter (fun g => !r.isNamed g) ++
        r.program.body.captures.filter r.isNamed) ∧
      r.order.Perm (List.range (r.program.groups + 1))) ∧
    (r.groupNames.Nodup ∧ ∀ {s : Session} {id : Nat} {o : Value}, s.store[id]? = some (.regex r o) →
      (∃ a u, s.exec (Methods.call (.ref id) "GetGroupNames" []) = (.ok (.ref a), u) ∧
        u.store[a]? = some (.array (r.groupNames.map .text))) ∧
      ∃ a u, s.exec (Methods.call (.ref id) "GetGroupNumbers" []) = (.ok (.ref a), u) ∧
        u.store[a]? = some (.array ((List.range (r.program.groups + 1)).map fun (k : Nat) => .int k))) ∧
    ∀ {s : Session} {v : Value} {m : Match}, IsMatchOf r s v m →
      ∃ id, s.exec (Properties.read v "Groups") = (.ok (.ref id), s) ∧
        ∀ {k : Nat}, k ≤ r.program.groups →
          ∃ g name item x, r.order[k]? = some g ∧ r.groupNames[k]? = some name ∧
            s.exec (Methods.call (.ref id) "get_Item" [.int k]) = (.ok item, s) ∧
            s.exec (Methods.call (.ref id) "get_Item" [.text name]) = (.ok item, s) ∧
            ReadsAs s item x ∧ Tells x m g name := by
  have hprogram : r.program.Numbered := (read_numbered (read_of_ofPattern h)).1
  have hlength : r.groupNames.length = r.program.groups + 1 := by
    rw [length_groupNames hprogram, (order_perm r).length_eq, List.length_range]
  refine ⟨⟨hprogram.captures, ?_, order_perm r⟩,
    ⟨groupNames_nodup hprogram, fun hr => ⟨exec_groupNames hr, ?_⟩⟩, ?_⟩
  · rw [order_eq, unnamed_eq, hprogram.captures]
  · rw [← hlength]
    exact exec_groupNumbers hr
  · exact fun hm => hm.exec_groups hprogram

/-- A named group to the left of an unnamed one. -/
def nameFirst : Regex where
  pattern := "(?<n>a)(b)".toList
  options := ⟨0⟩
  program :=
    ⟨.seq (.capture 1 (.char (.literal .exact 97 false))) (.capture 2 (.char (.literal .exact 98 false))), 2,
      [("n", 1)]⟩

def numbering : Session := { Session.start 0 with store := #[.regex nameFirst (.int 0)] }

theorem groups_numbered_nameFirst :
    ofPattern .empty nameFirst.pattern nameFirst.options = .ok nameFirst ∧
      ∃ v u id item, numbering.exec (Methods.call (.ref 0) "Match" [.text ['a', 'b'], .int (0 : Nat)]) =
          (.ok (.ref v), u) ∧
        u.exec (Properties.read (.ref v) "Groups") = (.ok (.ref id), u) ∧
        u.exec (Methods.call (.ref id) "get_Item" [.int (1 : Nat)]) = (.ok item, u) ∧
        u.exec (Methods.call (.ref id) "get_Item" [.text ['1']]) = (.ok item, u) ∧
        u.exec (Properties.read item "Value") = (.ok (.text ['b']), u) := by
  have hcompiles : ofPattern .empty nameFirst.pattern nameFirst.options = .ok nameFirst := by decide +kernel
  have hstore : numbering.store[0]? = some (.regex nameFirst (.int 0)) := rfl
  have hstart : 0 ≤ ['a', 'b'].length := Nat.zero_le _
  refine ⟨hcompiles, ?_⟩
  obtain ⟨-, -, hmatches⟩ := groups_numbered hcompiles
  obtain ⟨v, g, u, hu, -⟩ := exec_matchFrom hstore hstart
  obtain ⟨id, hread, hgroups⟩ := hmatches (.found hstore hstart hu)
  obtain ⟨g, name, item, x, hg, hname, hk, hitem, hx, htells⟩ := hgroups (show 1 ≤ 2 by decide)
  obtain rfl : 2 = g := Option.some.inj hg
  obtain rfl : ['1'] = name := Option.some.inj hname
  have hvalue : x.value = ['b'] := htells.value
  exact ⟨v, u, id, item, hu, hread, hk, hitem, hvalue ▸ hx.value⟩

end BaseLib.Regex
