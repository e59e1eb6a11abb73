import BaseLib.Proofs.Text.Classes
import BaseLib.Proofs.Text.Composite
import BaseLib.Surface.Reference

namespace BaseLib.Surface

def Blank (s : List Char) : Prop := ∀ c ∈ s, Text.isSpace c.toNat = true

def IsPlain (c : Char) : Prop := c ≠ '.' ∧ c ≠ '\x60' ∧ Text.isSpace c.toNat = false

instance : DecidablePred IsPlain := fun _ => inferInstanceAs (Decidable (_ ∧ _ ∧ _))

theorem plain_of_all {s : List Char} (h : s.all (IsPlain ·) = true) : ∀ c ∈ s, IsPlain c :=
  fun c hc => of_decide_eq_true (List.all_eq_true.mp h c hc)

/-- A name has characters, none of them a dot, a backtick or white space. -/
structure Name where
  chars : List Char
  nonempty : chars ≠ []
  plain : ∀ c ∈ chars, IsPlain c

/-- A name with the number of its type arguments, if that is given. -/
structure Generic where
  name : Name
  arity : Option (List Char)
  digits : ∀ ds ∈ arity, Text.allDigits ds = true

def Generic.arityText (g : Generic) : List Char := g.arity.elim [] ('\x60' :: ·)

def Generic.text (g : Generic) : List Char := g.name.chars ++ g.arityText

inductive Target
  | member (g : Generic)
  | constructor

namespace Target

def text : Target → List Char
  | member g => g.text
  | constructor => constructorName

def name : Target → List Char
  | member g => g.name.chars
  | constructor => constructorName

end Target

def dotted (path : List Name) (owner : Generic) (target : Target) : List Char :=
  Text.join ['.'] (path.map Name.chars ++ [owner.text, target.text])

/-- The type that a name stands for: the one that it is an alias of, or else the one of that name. -/
inductive StandsFor (name : String) : String → Prop
  | alias {type : String} (h : (name, type) ∈ aliases) : StandsFor name type
  | itself (h : ∀ type, (name, type) ∉ aliases) : StandsFor name name

theorem standsFor_lookup (name : String) : StandsFor name ((aliases.lookup name).getD name) := by
  cases hlookup : aliases.lookup name with
  | none =>
      refine .itself fun type hmem => ?_
      have hne := List.lookup_eq_none_iff.mp hlookup _ hmem
      simp at hne
  | some type =>
      obtain ⟨before, after, hsplit, -⟩ := List.lookup_eq_some_iff.mp hlookup
      exact .alias (hsplit ▸ List.mem_append_right before List.mem_cons_self)

variable {c : Char} {g : Generic} {target : Target} {xs ys : List Char}

def IsInner (c : Char) : Prop := c ≠ '.' ∧ Text.isSpace c.toNat = false

theorem Generic.inner_of_mem_arityText (h : c ∈ g.arityText) : IsInner c := by
  obtain ⟨name, _ | ds, hdigits⟩ := g
  · cases h
  · cases h with
    | head => exact ⟨by decide, by decide⟩
    | tail _ hc =>
        have hall := hdigits ds rfl
        rw [Text.allDigits, Bool.and_eq_true, List.all_eq_true] at hall
        have hdigit := hall.2 c hc
        refine ⟨?_, Text.isSpace_digit hdigit⟩
        rintro rfl
        exact absurd hdigit (by decide +kernel)

theorem Generic.inner_of_mem (h : c ∈ g.text) : IsInner c := by
  cases List.mem_append.mp h with
  | inl hname =>
      obtain ⟨hdot, -, hspace⟩ := g.name.plain c hname
      exact ⟨hdot, hspace⟩
  | inr harity => exact inner_of_mem_arityText harity

theorem Generic.not_dot (g : Generic) : '.' ∉ g.text := fun h => (inner_of_mem h).1 rfl

theorem Generic.text_ne_nil (g : Generic) : g.text ≠ [] :=
  List.append_ne_nil_of_left_ne_nil g.name.nonempty _

theorem withoutArity_text (g : Generic) : withoutArity g.text = g.name.chars := by
  have hplain : '\x60' ∉ g.name.chars := fun h => (g.name.plain _ h).2.1 rfl
  obtain ⟨name, arity, hdigits⟩ := g
  cases arity with
  | none =>
      rw [Generic.text, Generic.arityText, Option.elim_none, List.append_nil, withoutArity,
        Text.breakOn_singleton_none hplain]
  | some ds =>
      rw [Generic.text, Generic.arityText, Option.elim_some, withoutArity, Text.breakOn_singleton hplain]

theorem cutLast_append (h : c ∉ ys) : cutLast c (xs ++ c :: ys) = (xs, ys) := by
  have hdrop : (xs ++ c :: ys).drop (xs.length + 1) = ys := by
    rw [← List.drop_drop, List.drop_left, List.drop_succ_cons, List.drop_zero]
  rw [cutLast, Text.findLast?_singleton h]
  dsimp only
  rw [List.take_left, hdrop]

theorem cutLast_none (h : c ∉ ys) : cutLast c ys = ([], ys) := by
  rw [cutLast, Text.findLast?_singleton_none h]

inductive EndsOpen : List Char → Prop
  | nil : EndsOpen []
  | dot (xs : List Char) : EndsOpen (xs ++ ['.'])

theorem EndsOpen.cons (h : EndsOpen ys) (xs : List Char) : EndsOpen (xs ++ '.' :: ys) := by
  cases h with
  | nil => exact .dot xs
  | dot ys =>
      have happend : xs ++ '.' :: (ys ++ ['.']) = (xs ++ '.' :: ys) ++ ['.'] := by simp
      rw [happend]
      exact .dot _

theorem EndsOpen.cutLast (h : EndsOpen xs) (hys : '.' ∉ ys) : (cutLast '.' (xs ++ ys)).2 = ys := by
  cases h with
  | nil => rw [List.nil_append, cutLast_none hys]
  | dot xs => rw [List.append_assoc, List.singleton_append, cutLast_append hys]

theorem dotted_eq (path : List Name) (owner : Generic) (target : Target) :
    ∃ xs, EndsOpen xs ∧ (∀ c ∈ xs, Text.isSpace c.toNat = false) ∧
      dotted path owner target = xs ++ owner.text ++ '.' :: target.text := by
  induction path with
  | nil => exact ⟨[], .nil, List.forall_mem_nil _, by simp [dotted, Text.join, List.intercalate]⟩
  | cons name path ih =>
      obtain ⟨xs, hopen, hspace, htext⟩ := ih
      refine ⟨name.chars ++ '.' :: xs, hopen.cons _, ?_, ?_⟩
      · intro c hc
        rw [List.mem_append, List.mem_cons] at hc
        obtain hname | rfl | hrest := hc
        · exact (name.plain c hname).2.2
        · decide
        · exact hspace c hrest
      · have hnext : dotted (name :: path) owner target = name.chars ++ '.' :: dotted path owner target := by
          cases path <;> simp [dotted, Text.join, List.intercalate]
        rw [hnext, htext]
        simp

theorem Target.not_space (h : c ∈ target.text) : Text.isSpace c.toNat = false := by
  cases target with
  | member g => exact (Generic.inner_of_mem h).2
  | constructor =>
      have hall : constructorName.all (!Text.isSpace ·.toNat) = true := by decide
      simpa using List.all_eq_true.mp hall c h

theorem withoutArity_target (target : Target) : withoutArity target.text = target.name := by
  cases target with
  | member g => exact withoutArity_text g
  | constructor => decide

/-- A reference to a member does not end like one to a constructor: what precedes its last dot ends with no
dot. -/
theorem not_constructor (hys : ys ≠ []) (hdot : '.' ∉ ys) (g : Generic) :
    ¬('.' :: constructorName) <:+ xs ++ ys ++ '.' :: g.text := by
  rintro ⟨zs, hsuffix⟩
  have hshape : zs ++ '.' :: constructorName = (zs ++ ['.']) ++ '.' :: "ctor".toList := by
    rw [List.append_assoc]
    rfl
  have hcut : cutLast '.' ((zs ++ ['.']) ++ '.' :: "ctor".toList) = (zs ++ ['.'], "ctor".toList) :=
    cutLast_append (by decide)
  rw [← hshape, hsuffix, cutLast_append g.not_dot] at hcut
  have hends : xs ++ ys.dropLast ++ [ys.getLast hys] = zs ++ ['.'] := by
    rw [List.append_assoc, List.dropLast_concat_getLast]
    exact (Prod.ext_iff.mp hcut).1
  have hlast : ys.getLast hys = '.' := List.singleton_inj.mp (List.append_inj_right' hends rfl)
  exact hdot (hlast ▸ List.getLast_mem hys)

theorem parted (hys : ys ≠ []) (hdot : '.' ∉ ys) (target : Target) :
    (if ('.' :: constructorName).isSuffixOf (xs ++ ys ++ '.' :: target.text) then
        ((xs ++ ys ++ '.' :: target.text).take
          ((xs ++ ys ++ '.' :: target.text).length - ('.' :: constructorName).length), constructorName)
      else cutLast '.' (xs ++ ys ++ '.' :: target.text)) = (xs ++ ys, target.text) := by
  cases target with
  | member g =>
      have htext : (Target.member g).text = g.text := rfl
      rw [htext, if_neg (mt List.isSuffixOf_iff_suffix.mp (not_constructor hys hdot g))]
      exact cutLast_append g.not_dot
  | constructor =>
      have hsuffix : ('.' :: constructorName) <:+ xs ++ ys ++ '.' :: Target.constructor.text :=
        List.suffix_append _ _
      have hlength : (xs ++ ys ++ '.' :: Target.constructor.text).length - ('.' :: constructorName).length =
          (xs ++ ys).length := by
        rw [List.length_append]
        exact Nat.add_sub_cancel _ _
      rw [if_pos (List.isSuffixOf_iff_suffix.mpr hsuffix), hlength, List.take_left]
      rfl

/-- A written reference, with any white space around it, is taken apart into the type that its name stands for
and the bare name of the member; a constructor is found in the same type. -/
theorem splitReference_dotted (path : List Name) (owner : Generic) :
    ∃ type, StandsFor (String.ofList owner.name.chars) type ∧
      ∀ (target : Target) (before after : List Char), Blank before → Blank after →
        splitReference (before ++ (dotted path owner target ++ after)) = (type, String.ofList target.name) := by
  refine ⟨_, standsFor_lookup _, fun target before after hbefore hafter => ?_⟩
  obtain ⟨xs, hopen, hspace, htext⟩ := dotted_eq path owner target
  have hinner : ∀ c ∈ dotted path owner target, Text.isSpace c.toNat = false := by
    intro c hc
    rw [htext, List.mem_append, List.mem_append, List.mem_cons] at hc
    obtain (hpath | howner) | rfl | htarget := hc
    · exact hspace c hpath
    · exact (Generic.inner_of_mem howner).2
    · decide
    · exact Target.not_space htarget
  have hstrip : Text.strip (before ++ (dotted path owner target ++ after)) = dotted path owner target :=
    Text.Composite.trim_append hbefore hinner hafter
  rw [splitReference, hstrip, htext]
  dsimp only
  rw [parted owner.text_ne_nil owner.not_dot, hopen.cutLast owner.not_dot, withoutArity_text,
    withoutArity_target]

/-- Numbers of type arguments on both sides, an alias, and the constructor of the same type. -/
theorem splitReference_dotted_generic :
    Blank [' ', ' '] ∧ Blank ['\t'] ∧ ∃ type, StandsFor (String.ofList "Int32".toList) type ∧
      splitReference ([' ', ' '] ++ ("System.Int32\x602.Parse\x6012".toList ++ ['\t'])) =
        (type, String.ofList "Parse".toList) ∧
      splitReference ([' ', ' '] ++ ("System.Int32\x602..ctor".toList ++ ['\t'])) =
        (type, String.ofList ".ctor".toList) := by
  have hbefore : Blank [' ', ' '] :=
    List.all_eq_true.mp (by decide : [' ', ' '].all (Text.isSpace ·.toNat) = true)
  have hafter : Blank ['\t'] := List.all_eq_true.mp (by decide : ['\t'].all (Text.isSpace ·.toNat) = true)
  let owner : Generic := ⟨⟨"Int32".toList, by decide, plain_of_all (by decide)⟩, some ['2'], by decide⟩
  let parse : Generic := ⟨⟨"Parse".toList, by decide, plain_of_all (by decide)⟩, some ['1', '2'], by decide⟩
  obtain ⟨type, htype, hsplit⟩ := splitReference_dotted [⟨"System".toList, by decide, plain_of_all (by decide)⟩] owner
  exact ⟨hbefore, hafter, type, htype, hsplit (.member parse) _ _ hbefore hafter,
    hsplit .constructor _ _ hbefore hafter⟩

end BaseLib.Surface
