import BaseLib.Proofs.Number.Misuse
import BaseLib.Proofs.Text.Composite
import BaseLib.Regex.Replacement

namespace BaseLib.Regex

open Text.Composite

/-- What follows a dollar sign refers to a group by digits: by those in braces, or by all that come next. -/
inductive Refers : List Char → List Char → Prop
  | braces {digits rest : List Char} (closed : '}' ∉ digits) (run : Text.allDigits digits = true) :
    Refers ('{' :: (digits ++ '}' :: rest)) digits
  | plain {digits rest : List Char} (run : Text.allDigits digits = true)
    (stops : Stops (Text.isDigit ·.toNat) rest) : Refers (digits ++ rest) digits

section

variable {s : Site} {t digits : List Char} {c : Char}

theorem allDigits_iff : Text.allDigits t = true ↔ t ≠ [] ∧ ∀ c ∈ t, Text.isDigit c.toNat = true := by
  rw [Text.allDigits, Bool.and_eq_true, List.all_eq_true]
  simp

theorem run_ne_open (run : Text.allDigits digits = true) (rest : List Char) : digits ++ rest ≠ '{' :: t := by
  obtain ⟨hne, hall⟩ := allDigits_iff.mp run
  cases digits with
  | nil => exact absurd rfl hne
  | cons c digits =>
      intro h
      obtain rfl : c = '{' := (List.cons.inj h).1
      exact absurd (hall '{' List.mem_cons_self) (by decide)

theorem Refers.braces_iff (closed : '}' ∉ t) {rest : List Char} :
    Refers ('{' :: (t ++ '}' :: rest)) digits ↔ Text.allDigits t = true ∧ t = digits := by
  constructor
  · generalize h : '{' :: (t ++ '}' :: rest) = u
    intro href
    cases href with
    | braces closed' run =>
        have hbreak := Text.breakOn_singleton closed (r := rest)
        rw [(List.cons.inj h).2, Text.breakOn_singleton closed'] at hbreak
        cases hbreak
        exact ⟨run, rfl⟩
    | plain run stops => exact absurd h.symm (run_ne_open run _)
  · rintro ⟨run, rfl⟩
    exact .braces closed run

theorem not_refers_open (h : '}' ∉ t) : ¬Refers ('{' :: t) digits := by
  generalize hu : '{' :: t = u
  intro href
  cases href with
  | braces closed run =>
      cases hu
      exact h (by simp)
  | plain run stops => exact run_ne_open run _ hu.symm

theorem Refers.plain_iff (hc : c ≠ '{') :
    Refers (c :: t) digits ↔ (c :: t).takeWhile (Text.isDigit ·.toNat) = digits ∧ digits ≠ [] := by
  constructor
  · generalize h : c :: t = u
    intro href
    cases href with
    | braces closed run =>
        cases h
        exact absurd rfl hc
    | plain run stops =>
        obtain ⟨hne, hall⟩ := allDigits_iff.mp run
        exact ⟨takeWhile_append hall stops, hne⟩
  · rintro ⟨rfl, hne⟩
    have href := Refers.plain (allDigits_iff.mpr ⟨hne, fun c hc => List.mem_takeWhile_imp
      (p := fun c : Char => Text.isDigit c.toNat) hc⟩) (stops_dropWhile (Text.isDigit ·.toNat) (c :: t))
    rwa [List.takeWhile_append_dropWhile] at href

theorem not_refers_nil : ¬Refers [] digits := by
  generalize hu : ([] : List Char) = u
  intro href
  cases href with
  | braces closed run => cases hu
  | plain run stops => exact (allDigits_iff.mp run).1 (List.append_eq_nil_iff.mp hu.symm).1

theorem misused_keyed? (table : GroupTable) (key : List Char) :
    Misused (table.keyed? key) ↔ Text.allDigits key = true ∧ Unreadable key := by
  unfold GroupTable.keyed?
  split
  · rename_i hdigits
    rw [and_iff_right hdigits, misused_bind_pure, misused_readNumeral]
  · rename_i hother
    exact iff_of_false (misused_ok _) fun h => hother h.1

theorem Unreadable.of_take {n : Nat} (h : Unreadable (t.take n)) : Unreadable t := by
  rcases h with h | ⟨c, hc, h⟩
  · exact .inl (h.trans_le (List.length_take_le' n t))
  · exact .inr ⟨c, List.mem_of_mem_take hc, h⟩

theorem longest?_readable (table : GroupTable) (h : ¬Unreadable t) (n : Nat) :
    ¬Misused (table.longest? t n) := by
  induction n with
  | zero => exact misused_ok _
  | succ n ih =>
      rw [GroupTable.longest?, misused_bind, misused_readNumeral]
      rintro (htake | ⟨k, -, hk⟩)
      · exact h (Unreadable.of_take htake)
      · split at hk
        · exact misused_pure _ hk
        · exact ih hk

theorem misused_longest? (table : GroupTable) (t : List Char) :
    Misused (table.longest? t t.length) ↔ t ≠ [] ∧ Unreadable t := by
  cases t with
  | nil => simp [GroupTable.longest?]
  | cons c t =>
      constructor
      · intro h
        exact ⟨List.cons_ne_nil _ _, not_not.mp fun hread => longest?_readable table hread _ h⟩
      · rintro ⟨-, h⟩
        rw [List.length_cons, GroupTable.longest?, misused_bind, misused_readNumeral]
        exact .inl ((List.take_of_length_le (le_refl (c :: t).length)).symm ▸ h)

theorem misused_token? (s : Site) (t : List Char) :
    Misused (s.token? t) ↔ ∃ digits, Refers t digits ∧ Unreadable digits := by
  have hmark {c : Char} {t v : List Char} (hc : c ≠ '{') (hdigit : Text.isDigit c.toNat = false) :
      Misused (.ok (some (1, v)) : Except Fault (Option (Nat × List Char))) ↔
        ∃ digits, Refers (c :: t) digits ∧ Unreadable digits := by
    refine iff_of_false (misused_ok _) ?_
    rintro ⟨digits, href, -⟩
    obtain ⟨hrun, hne⟩ := (Refers.plain_iff hc).mp href
    rw [List.takeWhile_cons, hdigit] at hrun
    exact hne hrun.symm
  unfold Site.token?
  split
  · exact iff_of_false (misused_ok _) fun ⟨_, href, _⟩ => not_refers_nil href
  · exact hmark (by decide) (by decide)
  · exact hmark (by decide) (by decide)
  · exact hmark (by decide) (by decide)
  · exact hmark (by decide) (by decide)
  · exact hmark (by decide) (by decide)
  · exact hmark (by decide) (by decide)
  · rename_i rest
    by_cases hclosed : '}' ∈ rest
    · obtain ⟨key, tail, rfl, hkey⟩ := List.eq_append_cons_of_mem hclosed
      rw [Text.breakOn_singleton hkey]
      dsimp only
      rw [misused_bind_pure, misused_keyed?]
      simp only [Refers.braces_iff hkey, and_assoc, exists_and_left, exists_eq_left']
    · rw [Text.breakOn_singleton_none hclosed]
      exact iff_of_false (misused_ok _) fun ⟨_, href, _⟩ => not_refers_open hclosed href
  · rename_i hnil _ _ _ _ _ _ hopen
    cases t with
    | nil => exact absurd rfl hnil
    | cons c t =>
        have hc : c ≠ '{' := fun hc => hopen t (hc ▸ rfl)
        rw [misused_bind_pure, misused_longest?]
        simp only [Refers.plain_iff hc, and_assoc, exists_eq_left']

/-- The scan of a replacement text comes to a later part of it. -/
inductive Scans (s : Site) : List Char → List Char → Prop
  | here (t : List Char) : Scans s t t
  | plain {c : Char} {t u : List Char} (hc : c ≠ '$') (h : Scans s t u) : Scans s (c :: t) u
  | token {t u value : List Char} {n : Nat} (ht : s.token? t = .ok (some (n, value)))
    (h : Scans s (t.drop n) u) : Scans s ('$' :: t) u
  | dollar {t u : List Char} (ht : s.token? t = .ok none) (h : Scans s t u) : Scans s ('$' :: t) u

theorem expandAfter_drop (s : Site) (n : Nat) (t : List Char) :
    s.expandAfter n t = s.expandAfter 0 (t.drop n) := by
  induction n generalizing t with
  | zero => rfl
  | succ n ih =>
      cases t with
      | nil => rfl
      | cons c t => exact ih t

theorem misused_plain (hc : c ≠ '$') : Misused (s.expandAfter 0 (c :: t)) ↔ Misused (s.expandAfter 0 t) := by
  rw [Site.expandAfter, if_neg hc, misused_bind_pure]

theorem misused_token {n : Nat} {value : List Char} (ht : s.token? t = .ok (some (n, value))) :
    Misused (s.expandAfter 0 ('$' :: t)) ↔ Misused (s.expandAfter 0 (t.drop n)) := by
  rw [Site.expandAfter, if_pos rfl, ht, ← expandAfter_drop]
  exact misused_bind_pure

theorem misused_dollar (ht : s.token? t = .ok none) :
    Misused (s.expandAfter 0 ('$' :: t)) ↔ Misused (s.expandAfter 0 t) := by
  rw [Site.expandAfter, if_pos rfl, ht]
  exact misused_bind_pure

theorem misused_reference (ht : Misused (s.token? t)) : Misused (s.expandAfter 0 ('$' :: t)) := by
  rw [Site.expandAfter, if_pos rfl, misused_bind]
  exact .inl ht

theorem Scans.misused {u : List Char} (h : Scans s t ('$' :: u)) (hu : Misused (s.token? u)) :
    Misused (s.expandAfter 0 t) := by
  generalize hv : '$' :: u = v at h
  induction h with
  | here t => exact hv ▸ misused_reference hu
  | plain hc _ ih => exact (misused_plain hc).mpr (ih hv)
  | token ht _ ih => exact (misused_token ht).mpr (ih hv)
  | dollar ht _ ih => exact (misused_dollar ht).mpr (ih hv)

theorem exists_reference (n : Nat) (hn : t.length ≤ n) (h : Misused (s.expandAfter 0 t)) :
    ∃ u, Scans s t ('$' :: u) ∧ Misused (s.token? u) := by
  induction n generalizing t with
  | zero =>
      obtain rfl := List.length_eq_zero_iff.mp (Nat.le_zero.mp hn)
      exact absurd h (misused_ok _)
  | succ n ih =>
      cases t with
      | nil => exact absurd h (misused_ok _)
      | cons c t =>
          have hlen : t.length ≤ n := Nat.le_of_succ_le_succ hn
          by_cases hc : c = '$'
          · subst hc
            cases ht : s.token? t with
            | error e =>
                rw [Site.expandAfter, if_pos rfl, misused_bind] at h
                have herror : Misused (s.token? t) := h.resolve_right fun ⟨_, hok, _⟩ => by
                  rw [ht] at hok
                  cases hok
                exact ⟨t, .here _, herror⟩
            | ok token =>
                cases token with
                | none =>
                    obtain ⟨u, hu, hm⟩ := ih hlen ((misused_dollar ht).mp h)
                    exact ⟨u, .dollar ht hu, hm⟩
                | some token =>
                    obtain ⟨k, value⟩ := token
                    have hdrop : (t.drop k).length ≤ n := by
                      rw [List.length_drop]
                      omega
                    obtain ⟨u, hu, hm⟩ := ih hdrop ((misused_token ht).mp h)
                    exact ⟨u, .token ht hu, hm⟩
          · obtain ⟨u, hu, hm⟩ := ih hlen ((misused_plain hc).mp h)
            exact ⟨u, .plain hc hu, hm⟩

theorem misused_expand (s : Site) (replacement : List Char) :
    Misused (s.expand replacement) ↔
      ∃ t digits, Scans s replacement ('$' :: t) ∧ Refers t digits ∧ Unreadable digits := by
  have hscan : Misused (s.expand replacement) ↔ ∃ t, Scans s replacement ('$' :: t) ∧ Misused (s.token? t) :=
    ⟨exists_reference _ le_rfl, fun ⟨t, ht, hm⟩ => ht.misused hm⟩
  rw [hscan]
  simp only [misused_token?, exists_and_left]

end

end BaseLib.Regex
