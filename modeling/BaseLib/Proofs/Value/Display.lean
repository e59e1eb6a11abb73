import BaseLib.Proofs.Number.Misuse
import BaseLib.Value.Datum

namespace BaseLib

def RefusedIf {α : Type} (p : Prop) (r : Except Fault α) : Prop :=
  p ∧ r = .error (.misuse .badValue) ∨ ¬p ∧ ∃ x, r = .ok x

namespace RefusedIf

variable {α β γ δ : Type} {p q : Prop} {r : Except Fault α} {f : α → Except Fault β}

theorem of_ok (h : ¬p) (x : α) : RefusedIf p (.ok x : Except Fault α) := .inr ⟨h, x, rfl⟩

theorem congr (h : RefusedIf p r) (hpq : p ↔ q) : RefusedIf q r := by
  rwa [RefusedIf, ← hpq]

theorem bind (h : RefusedIf p r) (hf : ∀ x, RefusedIf q (f x)) : RefusedIf (p ∨ q) (r >>= f) := by
  obtain ⟨hp, rfl⟩ | ⟨hp, x, rfl⟩ := h
  · exact .inl ⟨.inl hp, rfl⟩
  · exact (hf x).congr (or_iff_right hp).symm

theorem then_ok (h : RefusedIf p r) (g : α → β) : RefusedIf p (r >>= fun x => .ok (g x)) :=
  (h.bind fun x => .of_ok id (g x)).congr (iff_of_eq (or_false p))

theorem both {r' : Except Fault β} (h : RefusedIf p r) (h' : RefusedIf q r') (g : α → β → γ) :
    RefusedIf (p ∨ q) (r >>= fun x => r' >>= fun y => .ok (g x y)) := h.bind fun _ => h'.then_ok _

theorem rebind {r' : Except Fault β} {g : α → β → γ} {f : α → β → Except Fault δ}
    (h : RefusedIf p (r >>= fun x => r' >>= fun y => .ok (g x y))) (hf : ∀ x y, RefusedIf q (f x y)) :
    RefusedIf (p ∨ q) (r >>= fun x => r' >>= fun y => f x y) := by
  obtain ⟨hp, h⟩ | ⟨hp, z, h⟩ := h
  · cases r with
    | error e =>
        cases h
        exact .inl ⟨.inl hp, rfl⟩
    | ok x =>
        cases r' with
        | error e =>
            cases h
            exact .inl ⟨.inl hp, rfl⟩
        | ok y => cases h
  · cases r with
    | error e => cases h
    | ok x =>
        cases r' with
        | error e => cases h
        | ok y => exact (hf x y).congr (or_iff_right hp).symm

theorem map (h : RefusedIf p r) (g : α → β) : RefusedIf p (r.map g) := by
  obtain ⟨hp, rfl⟩ | ⟨hp, x, rfl⟩ := h
  · exact .inl ⟨hp, rfl⟩
  · exact .inr ⟨hp, g x, rfl⟩

end RefusedIf

theorem Number.shown_refused (n : Int) :
    RefusedIf (10 ^ Text.Composite.longestNumeral ≤ n.natAbs) (shown (int n)) := by
  by_cases h : 10 ^ Text.Composite.longestNumeral ≤ n.natAbs
  · exact .inl ⟨h, shown_of_le h⟩
  · exact .inr ⟨h, _, shown_of_lt (Nat.not_le.mp h)⟩

namespace Datum

open Text (plain)

/-- Somewhere in what is shown of a value there is an integer of more digits than the host writes. -/
inductive Overlong : Datum → Prop
  | int {n : Int} (h : 10 ^ Text.Composite.longestNumeral ≤ n.natAbs) : Overlong (.number (.int n))
  | flags {t : FlagType} {bits : Nat} (h : 10 ^ Text.Composite.longestNumeral ≤ bits) : Overlong (.flags t bits)
  | nullable {v : Datum} (h : Overlong v) : Overlong (.nullable v)
  | key {k v : Datum} (h : Overlong k) : Overlong (.pair k v)
  | value {k v : Datum} (h : Overlong v) : Overlong (.pair k v)
  | tuple {items : List Datum} {x : Datum} (hx : x ∈ items) (h : Overlong x) : Overlong (.tuple items)
  | array {id : Nat} {items : List Datum} {x : Datum} (hx : x ∈ items) (h : Overlong x) : Overlong (.array id items)
  | map {id : Nat} {entries : List Datum} {x : Datum} (hx : x ∈ entries) (h : Overlong x) :
      Overlong (.map id entries)

theorem exists_mem_cons_iff {p : Datum → Prop} {x : Datum} {xs : List Datum} :
    (∃ y ∈ x :: xs, p y) ↔ p x ∨ ∃ y ∈ xs, p y := by
  simp

theorem overlong_int {n : Int} : Overlong (.number (.int n)) ↔ 10 ^ Text.Composite.longestNumeral ≤ n.natAbs := by
  constructor
  · rintro ⟨h⟩
    exact h
  · exact .int

theorem overlong_flags {t : FlagType} {bits : Nat} :
    Overlong (.flags t bits) ↔ 10 ^ Text.Composite.longestNumeral ≤ bits := by
  constructor
  · rintro (_ | h)
    exact h
  · exact .flags

theorem overlong_nullable {v : Datum} : Overlong (.nullable v) ↔ Overlong v := by
  constructor
  · rintro (_ | _ | h)
    exact h
  · exact .nullable

theorem overlong_pair {k v : Datum} : Overlong (.pair k v) ↔ Overlong k ∨ Overlong v := by
  constructor
  · rintro (_ | _ | _ | h | h)
    · exact .inl h
    · exact .inr h
  · exact fun h => h.elim .key .value

theorem overlong_tuple {items : List Datum} : Overlong (.tuple items) ↔ ∃ x ∈ items, Overlong x := by
  constructor
  · intro h
    cases h with
    | tuple hx h => exact ⟨_, hx, h⟩
  · rintro ⟨_, hx, h⟩
    exact .tuple hx h

theorem overlong_array {id : Nat} {items : List Datum} : Overlong (.array id items) ↔ ∃ x ∈ items, Overlong x := by
  constructor
  · intro h
    cases h with
    | array hx h => exact ⟨_, hx, h⟩
  · rintro ⟨_, hx, h⟩
    exact .array hx h

theorem overlong_map {id : Nat} {entries : List Datum} :
    Overlong (.map id entries) ↔ ∃ x ∈ entries, Overlong x := by
  constructor
  · intro h
    cases h with
    | map hx h => exact ⟨_, hx, h⟩
  · rintro ⟨_, hx, h⟩
    exact .map hx h

theorem shown_flags_refused (t : FlagType) (bits : Nat) :
    RefusedIf (Overlong (.flags t bits)) (Number.int bits).shown :=
  (Number.shown_refused bits).congr overlong_flags.symm

/-- An entry is shown as its key and its value, of which a pair of the two would be shown as well. -/
theorem entryLiterals_cons_refused {x : Datum} {xs : List Datum} (hx : RefusedIf x.Overlong x.literal)
    (hxs : RefusedIf (∃ y ∈ xs, y.Overlong) (entryLiterals xs)) :
    RefusedIf (∃ y ∈ x :: xs, y.Overlong) (entryLiterals (x :: xs)) := by
  refine RefusedIf.congr ?_ exists_mem_cons_iff.symm
  by_cases hentry : ∃ k v, x = tuple [k, v]
  · obtain ⟨k, v, rfl⟩ := hentry
    have hparts : literal (tuple [k, v]) = k.literal >>= fun a => v.literal >>= fun b =>
        .ok (plain "(" ++ separated [a, b] ++ plain ")") := by
      simp only [literal, literals, bind_assoc]
      rfl
    rw [hparts] at hx
    exact hx.rebind fun a b => hxs.then_ok _
  · rw [entryLiterals.eq_3 _ _ fun k v h => hentry ⟨k, v, h⟩]
    exact hx.both hxs _

mutual

theorem display_refused : (d : Datum) → RefusedIf d.Overlong d.display
  | nullable v => (display_refused v).congr overlong_nullable.symm
  | pair k v => ((display_refused k).both (display_refused v) _).congr overlong_pair.symm
  | tuple items => ((literals_refused items).then_ok _).congr overlong_tuple.symm
  | array _ items => ((literals_refused items).then_ok _).congr overlong_array.symm
  | map _ entries => ((entryLiterals_refused entries).then_ok _).congr overlong_map.symm
  | number (.int n) => ((Number.shown_refused n).map _).congr overlong_int.symm
  | flags t bits => (shown_flags_refused t bits).map _
  | number (.double _) | null | bool _ | text _ | symbol _ | day _ | options _ | typeName _ | timeSpan _
  | dateTime _ | point _ _ | encoding _ | object _ _ _ => .of_ok nofun _

theorem literal_refused : (d : Datum) → RefusedIf d.Overlong d.literal
  | nullable v => ((display_refused v).then_ok _).congr overlong_nullable.symm
  | pair k v => ((display_refused k).both (display_refused v) _).congr overlong_pair.symm
  | tuple items => ((literals_refused items).then_ok _).congr overlong_tuple.symm
  | array _ items => ((literals_refused items).then_ok _).congr overlong_array.symm
  | map _ entries => ((entryLiterals_refused entries).then_ok _).congr overlong_map.symm
  | number (.int n) => ((Number.shown_refused n).map _).congr overlong_int.symm
  | flags t bits => (shown_flags_refused t bits).map _
  | number (.double _) | null | bool _ | text _ | symbol _ | day _ | options _ | typeName _ | timeSpan _
  | dateTime _ | point _ _ | encoding _ | object _ _ _ => .of_ok nofun _

theorem literals_refused : (xs : List Datum) → RefusedIf (∃ x ∈ xs, x.Overlong) (literals xs)
  | [] => .of_ok (by simp) _
  | x :: xs => ((literal_refused x).both (literals_refused xs) _).congr exists_mem_cons_iff.symm

theorem entryLiterals_refused : (xs : List Datum) → RefusedIf (∃ x ∈ xs, x.Overlong) (entryLiterals xs)
  | [] => .of_ok (by simp) _
  | x :: xs => entryLiterals_cons_refused (literal_refused x) (entryLiterals_refused xs)

end

end Datum

end BaseLib
