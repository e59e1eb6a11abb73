import BaseLib.Proofs.Number.Equality
import BaseLib.Value.Datum

namespace BaseLib

inductive Content
  | null
  | bool (b : Bool)
  | number (x : Number)
  | text (codes : List Nat)
  | symbol (s : Symbol)
  | options (o : Options)
  | typeName (name : List Nat)
  | timeSpan (t : TimeSpan)
  | instant (ticks : Int)
  | point (x y : Int)
  | encoding (code : List Char)
  | tuple
  | array (id : Nat)
  | map (id : Nat)
  | object (id : Nat)
  | pair (key value : Content)
  deriving DecidableEq

namespace Content

def hash : Content → Int
  | null => 0
  | bool b => b.toNat
  | number x => x.hash
  | text codes => Text.Utf16.hashCodes codes
  | symbol s => Text.Utf16.hash s.memberName.toList
  | options _ | tuple => 0
  | typeName name => Text.Utf16.hashCodes name
  | timeSpan t => Word.fold t.ticks
  | instant ticks => Word.fold ticks
  | point x y => Word.wrap (31 * x + y)
  | encoding code => Text.Utf16.hash code
  | array id | map id | object id => Word.wrap id
  | pair k v => Word.wrap (31 * k.hash + v.hash)

end Content

theorem Word.fold_inRange (n : Int) : Word.InRange (Word.fold n) := by
  rw [fold]
  split
  · assumption
  · exact wrap_inRange _

theorem Text.Utf16.hashUnits_inRange (us : List Nat) : Word.InRange (hashUnits us) := by
  have key (h : Int) (hh : Word.InRange h) : Word.InRange (us.foldl step h) := by
    induction us generalizing h with
    | nil => exact hh
    | cons u us ih => exact ih _ (Word.wrap_inRange _)
  exact key 0 (by decide)

theorem Number.hash_inRange (x : Number) : Word.InRange x.hash := by
  cases x with
  | int n => exact Word.fold_inRange n
  | double d =>
      simp only [hash]
      cases d.toInt? with
      | some n => exact Word.fold_inRange n
      | none => exact Text.Utf16.hashUnits_inRange _

theorem Content.hash_inRange (c : Content) : Word.InRange c.hash := by
  cases c with
  | null | tuple => decide
  | options o => exact (by decide : Word.InRange 0)
  | bool b => cases b <;> decide
  | number x => exact x.hash_inRange
  | text | symbol | typeName | encoding => exact Text.Utf16.hashUnits_inRange _
  | timeSpan | instant => exact Word.fold_inRange _
  | point | array | map | object | pair => exact Word.wrap_inRange _

theorem DateTime.equals_iff (offset : Int) (a b : DateTime) :
    a.equals offset b = true ↔ a.instant offset = b.instant offset := by
  rw [equals, pair, beq_iff_eq]
  split
  · rename_i hk
    rw [instant, instant, hk]
    cases b.kind <;> simp
  · rfl

namespace Datum

def content (offset : Int) : Datum → Content
  | null => .null
  | bool b => .bool b
  | number x => .number x.content
  | text s => .text s
  | symbol s => .symbol s
  | day n => .number (.int n)
  | flags _ bits => .number (.int bits)
  | options o => .options o
  | typeName name => .typeName name
  | timeSpan t => .timeSpan t
  | dateTime d => .instant (d.instant offset)
  | point x y => .point x y
  | encoding code => .encoding code
  | nullable v => content offset v
  | pair k v => .pair (content offset k) (content offset v)
  | tuple _ => .tuple
  | array id _ => .array id
  | map id _ => .map id
  | object id _ _ => .object id

/-- No foreign tuple stands in the value where equality would look into it. -/
def tupleless : Datum → Bool
  | nullable v => v.tupleless
  | pair k v => k.tupleless && v.tupleless
  | tuple _ => false
  | _ => true

def isLeaf : Datum → Bool
  | nullable _ | pair _ _ => false
  | _ => true

/-- Values of the host other than null, truth values and references: compared with a value of the
library, they let that value decide. -/
def isOpen : Datum → Bool
  | number _ | text _ | symbol _ | day _ | flags _ _ | options _ => true
  | _ => false

/-- Does equality come from the left value through to the content of the right one? A `nullable` on the
left takes a layer off both sides. What is left of the layers on the right is passed by open values
only. -/
def reaches : Datum → Datum → Bool
  | nullable v, y => v.reaches y.unwrap
  | pair k v, pair k' v' => k.reaches k' && v.reaches v'
  | x, y => !y.isNullable || x.isOpen

@[elab_as_elim]
theorem layerInduction {motive : Datum → Prop} (leaf : ∀ x, x.isLeaf = true → motive x)
    (nullable : ∀ v, motive v → motive (nullable v))
    (pair : ∀ k v, motive k → motive v → motive (pair k v)) : ∀ x, motive x
  | .nullable v => nullable v (layerInduction leaf nullable pair v)
  | .pair k v => pair k v (layerInduction leaf nullable pair k) (layerInduction leaf nullable pair v)
  | .null | .bool _ | .number _ | .text _ | .symbol _ | .day _ | .flags _ _ | .options _
  | .typeName _ | .timeSpan _ | .dateTime _ | .point _ _ | .encoding _ | .tuple _ | .array _ _
  | .map _ _ | .object _ _ _ => leaf _ rfl

variable (offset : Int)

theorem content_bare (y : Datum) : y.bare.content offset = y.content offset := by
  induction y using layerInduction with
  | leaf y h => cases y <;> first | rfl | cases h
  | nullable v ih => exact ih
  | pair k v => rfl

theorem content_unwrap (y : Datum) : y.unwrap.content offset = y.content offset := by
  cases y <;> rfl

theorem isNullable_bare (y : Datum) : y.bare.isNullable = false := by
  induction y using layerInduction with
  | leaf y h => cases y <;> first | rfl | cases h
  | nullable v ih => exact ih
  | pair k v => rfl

theorem hash_eq (x : Datum) (h : x.tupleless = true) : x.hash offset = (x.content offset).hash := by
  induction x using layerInduction with
  | leaf x hx =>
      cases x with
      | number x => exact (Number.hash_content x).symm
      | nullable | pair => cases hx
      | tuple => cases h
      | _ => rfl
  | nullable v ih => simpa [hash, content] using ih h
  | pair k v ihk ihv =>
      simp only [tupleless, Bool.and_eq_true] at h
      simp [hash, content, Content.hash, ihk h.1, ihv h.2]

theorem isNullable_iff (y : Datum) : y.isNullable = true ↔ ∃ v, y = nullable v := by
  cases y <;> simp [isNullable]

theorem content_of_number {z : Datum} {b : Number} (hk : z.number? = some b)
    (hz : z.isBool = false) : z.content offset = .number b.content ∧ z.isNaN = b.isNaN := by
  cases z <;> simp [number?, isBool] at hk hz
  · subst hk
    rename_i x
    cases x <;> exact ⟨rfl, rfl⟩
  all_goals
    subst hk
    exact ⟨rfl, rfl⟩

theorem content_ne_number {z : Datum} (hn : z.isNullable = false)
    (h : z.number? = none ∨ z.isBool = true) (c : Number) : z.content offset ≠ .number c := by
  cases z <;> simp_all [number?, isBool, isNullable, content]

theorem isBool_of_number? {z : Datum} (h : z.number? = none) :
    z.isBool = false ∧ z.isNaN = false := by
  cases z <;> simp_all [number?, isBool, isNaN]

theorem numberEq_number {x : Datum} {a : Number} (hx : x.number? = some a) (hb : x.isBool = false)
    (y : Datum) : numberEq false x y = true ↔ x.content offset = y.content offset := by
  obtain ⟨hc, hn⟩ := content_of_number offset hx hb
  have hy := isNullable_bare y
  rw [← content_bare offset y, hc]
  cases hk : y.bare.number? with
  | none =>
      obtain ⟨hz, hm⟩ := isBool_of_number? hk
      have hne := content_ne_number offset hy (.inl hk) a.content
      simp [numberEq, hx, hb, hk, hz, hm, hne.symm]
  | some b =>
      cases hz : y.bare.isBool with
      | true =>
          have hne := content_ne_number offset hy (.inr hz) a.content
          simp [numberEq, hb, hz, hne.symm]
      | false =>
          obtain ⟨hd, hm⟩ := content_of_number offset hk hz
          rw [hd, Content.number.injEq, Number.content_eq_iff, ← hn, ← hm]
          cases hnx : x.isNaN && y.bare.isNaN <;> simp_all [numberEq]

theorem numberEq_bool (b : Bool) (y : Datum) :
    numberEq false (bool b) y = true ↔ y = bool b := by
  cases y with
  | bool c =>
      cases b <;> cases c <;>
        simp [numberEq, isBool, isNaN, isNullable, bare, number?, Number.eq_iff, Number.isNaN,
          Number.content]
  | _ => simp [numberEq, isBool, isNullable, bare]

theorem numberEq_none {x : Datum} (hx : x.number? = none) (y : Datum) :
    numberEq false x y = false := by
  obtain ⟨hb, hn⟩ := isBool_of_number? hx
  simp [numberEq, hx, hb, hn]

theorem content_eq_iff_bare {x y : Datum} (hx : x.isOpen = true) (hn : x.number? = none) :
    x.content offset = y.content offset ↔ x = y.bare := by
  rw [← content_bare offset y]
  have hy := isNullable_bare y
  cases x with
  | text | symbol | options => cases h : y.bare <;> simp_all [content, isNullable]
  | number | day | flags => cases hn
  | _ => cases hx

theorem eqv_open {x : Datum} (hx : x.isOpen = true) (y : Datum) :
    eqv offset false x y = true ↔ x.content offset = y.content offset := by
  cases x with
  | number a =>
      rw [← numberEq_number offset rfl rfl y]
      simp [eqv, leafEq]
  | day n =>
      rw [← numberEq_number offset rfl rfl y]
      simp [eqv, leafEq]
  | flags t n =>
      rw [← numberEq_number offset rfl rfl y]
      simp [eqv, leafEq]
  | text t =>
      rw [content_eq_iff_bare offset rfl rfl]
      cases h : y.bare <;> simp [eqv, leafEq, h]
  | symbol t =>
      rw [content_eq_iff_bare offset rfl rfl]
      cases h : y.bare <;> simp [eqv, leafEq, h]
  | options t =>
      rw [content_eq_iff_bare offset rfl rfl]
      cases h : y.bare <;> simp [eqv, leafEq, h]
  | _ => cases hx

theorem numberEq_leaf {x : Datum} (hl : x.isLeaf = true) (ho : x.isOpen = false)
    (hb : x.isBool = false) (y : Datum) : numberEq false x y = false := by
  cases x with
  | number | day | flags => cases ho
  | bool => cases hb
  | _ => exact numberEq_none rfl y

theorem eqv_bool (b : Bool) (y : Datum) : eqv offset false (bool b) y = true ↔ y = bool b := by
  rw [← numberEq_bool]
  simp [eqv, leafEq]

theorem eqv_closed_nullable {x : Datum} (hx : x.isLeaf = true) (ht : x.tupleless = true)
    (ho : x.isOpen = false) (v : Datum) : eqv offset false x (nullable v) = false := by
  cases hb : x.isBool with
  | true =>
      cases x <;> simp [isBool] at hb
      simp [eqv, leafEq, numberEq, isBool, isNullable]
  | false =>
      have hn := numberEq_leaf hx ho hb (nullable v)
      cases x with
      | nullable | pair => cases hx
      | tuple => cases ht
      | array | map => cases h : v.bare <;> simp [eqv, bare, h]
      | null => rfl
      | _ => simp_all [eqv, leafEq, isOpen]

theorem eqv_closed {x : Datum} (hx : x.isLeaf = true) (ht : x.tupleless = true)
    (ho : x.isOpen = false) (y : Datum) :
    eqv offset false x y = true ↔ y.isNullable = false ∧ x.content offset = y.content offset := by
  cases hb : x.isBool with
  | true =>
      cases x <;> simp [isBool] at hb
      rw [eqv_bool]
      cases y <;> simp [content, isNullable, eq_comm]
  | false =>
      have hn := numberEq_leaf hx ho hb
      have hv := eqv_closed_nullable offset hx ht ho
      cases x with
      | number | text | symbol | day | flags | options => cases ho
      | bool => cases hb
      | nullable | pair => cases hx
      | tuple => cases ht
      | _ =>
          cases y with
          | nullable v => simp [hv, isNullable]
          | _ => simp [eqv, leafEq, content, isNullable, isNull, bare, hn, DateTime.equals_iff]

theorem reaches_leaf {x : Datum} (hx : x.isLeaf = true) (y : Datum) :
    x.reaches y = (!y.isNullable || x.isOpen) := by
  cases x with
  | nullable | pair => cases hx
  | _ => rfl

/-- Equality decided by contents and layers: the left value has the content of the right one and
reaches it. -/
theorem equals_iff {x : Datum} (hx : x.tupleless = true) (y : Datum) :
    x.equals offset y = true ↔ x.content offset = y.content offset ∧ x.reaches y = true := by
  rw [equals]
  -- The right value varies: a layer on the left takes one off it.
  induction x using layerInduction generalizing y with
  | leaf x hl =>
      rw [reaches_leaf hl, Bool.or_eq_true, Bool.not_eq_true']
      cases ho : x.isOpen with
      | true => simp [eqv_open offset ho]
      | false => simp [eqv_closed offset hl hx ho, and_comm]
  | nullable v ih =>
      rw [eqv, ih hx, content_unwrap]
      rfl
  | pair k v ihk ihv =>
      simp only [tupleless, Bool.and_eq_true] at hx
      cases y with
      | pair k' v' =>
          simp only [eqv, Bool.and_eq_true, ihk hx.1, ihv hx.2, content, Content.pair.injEq, reaches]
          tauto
      | nullable w => simp [eqv, reaches, isNullable, isOpen]
      | _ => simp [eqv, content]

end Datum

end BaseLib
