import BaseLib.Proofs.Regex.GroupTable
import BaseLib.Proofs.Regex.Openers

namespace BaseLib.Regex

open Library Session

variable {known : CharacterNames} {r : Regex} {pattern : List Char} {options : RegexOptions}

/-- How many groups without a name open in the pattern that is read. -/
def bareGroups (pattern : List Char) (options : RegexOptions) : Nat :=
  Reader.openers (.start options.flags.verbose)
    (Reader.tokens (Spelling.normalize pattern options.explicitCapture))

theorem length_unnamed (h : ofPattern known pattern options = .ok r) : r.unnamed.length = bareGroups pattern options := by
  have hread := read_of_ofPattern h
  have hprogram := (read_numbered hread).1
  have hlength := length_groupNames hprogram
  rw [groupNames_eq hprogram, (order_perm r).length_eq] at hlength
  simp only [List.length_append, List.length_map, List.length_range] at hlength
  have hgroups : r.program.groups = r.program.names.length + bareGroups pattern options := read_openers hread
  omega

theorem named_iff_unnamed_nil (r : Regex) :
    (∀ g, 1 ≤ g → g ≤ r.program.groups → r.isNamed g = true) ↔ r.unnamed = [] := by
  rw [unnamed_eq, List.filter_eq_nil_iff]
  refine forall_congr' fun g => ?_
  rw [List.mem_range'_1, Nat.add_comm 1, Nat.lt_succ_iff, and_imp, Bool.not_eq_true', Bool.not_eq_false]

theorem digits_mem_groupNames (h : r.program.Numbered) (k : Nat) :
    Decimal.digits k ∈ r.groupNames ↔ k ≤ r.unnamed.length := by
  rw [groupNames_eq h, List.mem_append, List.mem_map_of_injective digits_injective, List.mem_range, Nat.lt_succ_iff,
    or_iff_left]
  intro hname
  obtain ⟨e, he, hdigits⟩ := List.mem_map.mp hname
  have hvalid := h.valid e he
  rw [hdigits, isName_digits] at hvalid
  cases hvalid

theorem bareGroups_explicit (he : options.explicitCapture = true)
    (h : Reader.clear (.start options.flags.verbose) (Reader.tokens pattern) = true) :
    bareGroups pattern options = 0 := by
  rw [bareGroups, he]
  exact Reader.openers_go (Nat.lt_succ_self _) (Reader.Place.fits_of_settled rfl pattern) h

/-- The names of the groups of a regular expression that compiles: as many numbers behind zero as groups without
a name open in the pattern that is read, then the names that it gives. All groups have names exactly if no group
opens without one. With captures by name only this is so for each pattern in which the rewriting takes nothing
for something else: no sign of a set, of a reference or of a quoted name in a comment, and no sign at all in a
name. -/
theorem names_generated (h : ofPattern known pattern options = .ok r) :
    r.groupNames = (List.range (bareGroups pattern options + 1)).map Decimal.digits ++
        r.program.names.map (fun e => e.1.toList) ∧
      (∀ {s : Session} {id : Nat} {o : Value}, s.store[id]? = some (.regex r o) →
        ∃ a u, s.exec (Methods.call (.ref id) "GetGroupNames" []) = (.ok (.ref a), u) ∧
          u.store[a]? = some (.array (r.groupNames.map .text))) ∧
      (∀ k, Decimal.digits k ∈ r.groupNames ↔ k ≤ bareGroups pattern options) ∧
      ((∀ g, 1 ≤ g → g ≤ r.program.groups → r.isNamed g = true) ↔ bareGroups pattern options = 0) ∧
      (options.explicitCapture = true →
        Reader.clear (.start options.flags.verbose) (Reader.tokens pattern) = true →
        bareGroups pattern options = 0) := by
  have hprogram : r.program.Numbered := (read_numbered (read_of_ofPattern h)).1
  have hunnamed := length_unnamed h
  refine ⟨?_, fun hr => exec_groupNames hr, fun k => ?_, ?_, bareGroups_explicit⟩
  · rw [groupNames_eq hprogram, hunnamed]
  · rw [digits_mem_groupNames hprogram, hunnamed]
  · rw [named_iff_unnamed_nil, List.eq_nil_iff_length_eq_zero, hunnamed]

/-- A group with a name behind one without. -/
def secondNamed : Regex where
  pattern := "(a)(?<n>b)".toList
  options := ⟨4⟩
  program :=
    ⟨.seq (.wrap (.char (.literal .exact 97 false))) (.capture 1 (.char (.literal .exact 98 false))), 1, [("n", 1)]⟩

theorem names_generated_explicit :
    ofPattern .empty secondNamed.pattern secondNamed.options = .ok secondNamed ∧
      secondNamed.groupNames = [['0'], ['n']] ∧
      ∀ g, 1 ≤ g → g ≤ secondNamed.program.groups → secondNamed.isNamed g = true := by
  have hcompiles : ofPattern .empty secondNamed.pattern secondNamed.options = .ok secondNamed := by decide +kernel
  obtain ⟨hnames, -, -, hall, hclear⟩ := names_generated hcompiles
  have hbare : bareGroups secondNamed.pattern secondNamed.options = 0 := hclear (by decide) (by decide +kernel)
  rw [hbare] at hnames
  exact ⟨hcompiles, hnames, hall.mpr hbare⟩

/-- A bracket in a comment before a group without a name. -/
def commented : Regex where
  pattern := "(?#[)(a)".toList
  options := ⟨4⟩
  program := ⟨.capture 1 (.char (.literal .exact 97 false)), 1, []⟩

def commenting : Session := { Session.start 0 with store := #[.regex commented (.int 4)] }

/-- The group keeps its number, although only names should capture. -/
theorem comment_keeps_number :
    ofPattern .empty commented.pattern commented.options = .ok commented ∧
      commented.options.explicitCapture = true ∧ commented.isNamed 1 = false ∧
      ∃ a u, commenting.exec (Methods.call (.ref 0) "GetGroupNames" []) = (.ok (.ref a), u) ∧
        u.store[a]? = some (.array [.text ['0'], .text ['1']]) := by
  have hstore : commenting.store[0]? = some (.regex commented (.int 4)) := rfl
  have hnames : commented.groupNames = [['0'], ['1']] := by decide +kernel
  have hrun := exec_groupNames hstore
  rw [hnames] at hrun
  exact ⟨by decide +kernel, by decide, by decide, hrun⟩

end BaseLib.Regex
