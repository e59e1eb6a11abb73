import BaseLib.Regex.Matcher

namespace BaseLib.Regex

variable {text : Array Char} {pos pos' pos'' n : Nat} {marks marks' marks'' : Marks} {r : Reached}

theorem lt_size_of_getElem? {i : Nat} {c : Char} (h : text[i]? = some c) : i < text.size :=
  (Array.getElem?_eq_some_iff.mp h).1

theorem sameText_forward {f : Folding} {part : List Char} (hpos : pos ≤ text.size)
    (h : sameText text f part pos = some pos') : pos ≤ pos' ∧ pos' ≤ text.size := by
  induction part generalizing pos with
  | nil =>
      cases h
      exact ⟨Nat.le_refl _, hpos⟩
  | cons c part ih =>
      rw [sameText] at h
      split at h
      · rename_i d hd
        split at h
        · have hlt := lt_size_of_getElem? hd
          obtain ⟨hle, hsize⟩ := ih (by omega) h
          exact ⟨by omega, hsize⟩
        · cases h
      · cases h

def Marks.EndBy (n : Nat) (marks : Marks) : Prop := ∀ e ∈ marks, ∀ b ∈ e.2, b ≤ n

theorem Marks.EndBy.modify {f : Option Nat × Option Nat → Option Nat × Option Nat} (h : marks.EndBy n)
    (hf : ∀ e, (∀ b ∈ e.2, b ≤ n) → ∀ b ∈ (f e).2, b ≤ n) (i : Nat) :
    EndBy n (List.modify marks i f) := by
  intro e he
  obtain ⟨j, hj⟩ := List.mem_iff_getElem?.mp he
  rw [List.getElem?_modify] at hj
  obtain ⟨e', he', rfl⟩ := Option.map_eq_some_iff.mp hj
  have hkept := h e' (List.mem_of_getElem? he')
  split
  · exact hf e' hkept
  · exact hkept

theorem Marks.EndBy.setStart (h : marks.EndBy n) (g pos : Nat) : (marks.setStart g pos).EndBy n :=
  EndBy.modify (f := fun e => (some pos, e.2)) h (fun _ he => he) (g - 1)

theorem Marks.EndBy.setEnd (h : marks.EndBy n) (g : Nat) (hpos : pos ≤ n) : (marks.setEnd g pos).EndBy n :=
  EndBy.modify (f := fun e => (e.1, some pos)) h (fun _ _ _ hb => Option.some.inj hb ▸ hpos) (g - 1)

theorem Marks.endBy_fresh (groups n : Nat) : (fresh groups).EndBy n := by
  intro e he b hb
  obtain rfl := List.eq_of_mem_replicate he
  cases hb

structure Advances (text : Array Char) (pos : Nat) (marks : Marks) (pos' : Nat) (marks' : Marks) : Prop where
  le : pos ≤ pos'
  place : pos' ≤ text.size
  marked : marks.EndBy text.size → marks'.EndBy text.size

theorem Advances.refl (hpos : pos ≤ text.size) : Advances text pos marks pos marks :=
  ⟨Nat.le_refl _, hpos, id⟩

theorem Advances.trans (h : Advances text pos marks pos' marks') (h' : Advances text pos' marks' pos'' marks'') :
    Advances text pos marks pos'' marks'' :=
  ⟨Nat.le_trans h.le h'.le, h'.place, h'.marked ∘ h.marked⟩

def Advancing (text : Array Char) (a : Attempt) : Prop :=
  ∀ {pos : Nat} {marks : Marks} {k : Continuation} {r : Reached}, pos ≤ text.size →
    a pos marks k = some r →
      ∃ pos' marks', Advances text pos marks pos' marks' ∧ k pos' marks' = some r

theorem Advancing.alone {a : Attempt} (ha : Advancing text a) (hpos : pos ≤ text.size)
    (h : a pos marks (fun p m => some ⟨p, m⟩) = some r) : Advances text pos marks r.stop r.marks := by
  obtain ⟨pos', marks', hmove, hk⟩ := ha hpos h
  cases hk
  exact hmove

theorem advancing_skip : Advancing text fun pos marks k => k pos marks :=
  fun {pos marks _ _} hpos h => ⟨pos, marks, .refl hpos, h⟩

theorem Advancing.andThen {a b : Attempt} (ha : Advancing text a) (hb : Advancing text b) :
    Advancing text fun pos marks k => a pos marks fun pos' marks' => b pos' marks' k := by
  intro pos marks k r hpos h
  obtain ⟨p, m, hmove, hk⟩ := ha hpos h
  obtain ⟨p', m', hmove', hk'⟩ := hb hmove.place hk
  exact ⟨p', m', hmove.trans hmove', hk'⟩

theorem Advancing.orElse {a b : Attempt} (ha : Advancing text a) (hb : Advancing text b) :
    Advancing text fun pos marks k => (a pos marks k).or (b pos marks k) := by
  intro pos marks k r hpos h
  rcases Option.or_eq_some_iff.mp h with h | ⟨-, h⟩
  · exact ha hpos h
  · exact hb hpos h

theorem advancing_greedyRounds {body : Attempt} (hb : Advancing text body) (low : Nat)
    (high : Option Nat) (fuel count : Nat) (last : Option Nat) :
    Advancing text (greedyRounds body low high fuel count last) := by
  induction fuel generalizing count last with
  | zero =>
      intro pos marks k r _ h
      cases h
  | succ fuel ih =>
      intro pos marks k r hpos h
      rw [greedyRounds] at h
      split at h
      · exact hb.andThen (ih _ _) hpos h
      · rcases Option.or_eq_some_iff.mp h with h | ⟨-, h⟩
        · split at h
          · exact hb.andThen (ih _ _) hpos h
          · cases h
        · exact advancing_skip hpos h

theorem advancing_lazyRounds {body : Attempt} (hb : Advancing text body) (low : Nat)
    (high : Option Nat) (fuel count : Nat) (last : Option Nat) :
    Advancing text (lazyRounds body low high fuel count last) := by
  induction fuel generalizing count last with
  | zero =>
      intro pos marks k r _ h
      cases h
  | succ fuel ih =>
      intro pos marks k r hpos h
      rw [lazyRounds] at h
      split at h
      · exact hb.andThen (ih _ _) hpos h
      · rcases Option.or_eq_some_iff.mp h with h | ⟨-, h⟩
        · exact advancing_skip hpos h
        · split at h
          · exact hb.andThen (ih _ _) hpos h
          · cases h

theorem advances_possessiveRounds {body : Attempt} (hb : Advancing text body) (low : Nat)
    (high : Option Nat) {fuel count : Nat} {last : Option Nat} (hpos : pos ≤ text.size)
    (h : possessiveRounds body low high fuel count last pos marks = some r) :
    Advances text pos marks r.stop r.marks := by
  induction fuel generalizing count last pos marks with
  | zero => cases h
  | succ fuel ih =>
      rw [possessiveRounds] at h
      split at h
      · split at h
        · rename_i r' hr
          have hround := hb.alone hpos hr
          exact hround.trans (ih hround.place h)
        · cases h
      · split at h
        · split at h
          · rename_i r' hr
            have hround := hb.alone hpos hr
            exact hround.trans (ih hround.place h)
          · cases h
            exact .refl hpos
        · cases h
          exact .refl hpos

theorem Pattern.run_advancing (p : Pattern) : Advancing text (p.run text) := by
  induction p with
  | empty => exact advancing_skip
  | char test =>
      intro pos marks k r hpos h
      rw [Pattern.run] at h
      split at h
      · rename_i c hc
        have hlt := lt_size_of_getElem? hc
        split at h
        · exact ⟨pos + 1, marks, ⟨by omega, hlt, id⟩, h⟩
        · cases h
      · cases h
  | anchor a =>
      intro pos marks k r hpos h
      rw [Pattern.run] at h
      split at h
      · exact advancing_skip hpos h
      · cases h
  | seq p q ihp ihq => exact ihp.andThen ihq
  | alt p q ihp ihq => exact ihp.orElse ihq
  | capture g p ih =>
      intro pos marks k r hpos h
      obtain ⟨pos', marks', hmove, hk⟩ := ih hpos h
      have hmarked (hm : marks.EndBy text.size) : (marks'.setEnd g pos').EndBy text.size :=
        (hmove.marked (hm.setStart g pos)).setEnd g hmove.place
      exact ⟨pos', marks'.setEnd g pos', ⟨hmove.le, hmove.place, hmarked⟩, hk⟩
  | wrap p ih => exact ih
  | atomic p ih =>
      intro pos marks k r hpos h
      rw [Pattern.run] at h
      split at h
      · rename_i r' hr
        exact ⟨r'.stop, r'.marks, ih.alone hpos hr, h⟩
      · cases h
  | backref g f =>
      intro pos marks k r hpos h
      rw [Pattern.run] at h
      split at h
      · split at h
        · rename_i pos' hs
          obtain ⟨hle, hsize⟩ := sameText_forward hpos hs
          exact ⟨pos', marks, ⟨hle, hsize, id⟩, h⟩
        · cases h
      · cases h
  | conditional g p q ihp ihq =>
      intro pos marks k r hpos h
      rw [Pattern.run] at h
      split at h
      · exact ihp hpos h
      · exact ihq hpos h
  -- A look around stays where it is, with what it has marked on the way.
  | ahead negated p ih =>
      intro pos marks k r hpos h
      simp only [Pattern.run] at h
      split at h
      · rename_i r' hr
        exact ⟨pos, r'.marks, ⟨Nat.le_refl _, hpos, (ih.alone hpos hr).marked⟩, h⟩
      · exact advancing_skip hpos h
      · cases h
  | behind negated width p ih =>
      intro pos marks k r hpos h
      simp only [Pattern.run] at h
      split at h
      · rename_i r' hr
        split at hr
        · have hback : pos - width ≤ text.size := Nat.le_trans (Nat.sub_le _ _) hpos
          exact ⟨pos, r'.marks, ⟨Nat.le_refl _, hpos, (ih.alone hback hr).marked⟩, h⟩
        · cases hr
      · exact advancing_skip hpos h
      · cases h
  | repetition low high greed p ih =>
      intro pos marks k r hpos h
      cases greed with
      | greedy => exact advancing_greedyRounds ih low high _ _ _ hpos h
      | «lazy» => exact advancing_lazyRounds ih low high _ _ _ hpos h
      | possessive =>
          rw [Pattern.run] at h
          split at h
          · rename_i r' hr
            exact ⟨r'.stop, r'.marks, advances_possessiveRounds ih low high hpos hr, h⟩
          · cases h

end BaseLib.Regex
