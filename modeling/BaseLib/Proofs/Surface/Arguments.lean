import BaseLib.Command
import Mathlib.Tactic.SplitIfs

namespace BaseLib.Command

open Surface

def IsFlag (arg : String) : Prop := arg = "--json" ∨ arg = "--allow-unported"

instance : DecidablePred IsFlag := fun _ => inferInstanceAs (Decidable (_ ∨ _))

def words (args : List String) : List String := args.filter (¬IsFlag ·)

def HasHelp (args : List String) : Prop := "--help" ∈ args ∨ "-h" ∈ args

instance : DecidablePred HasHelp := fun _ => inferInstanceAs (Decidable (_ ∨ _))

def IsFile (word : String) : Prop := word ≠ "" ∧ (word = "-" ∨ ¬['-'] <+: word.toList)

/-- Words that are a whole command, and what they ask for with these flags. -/
inductive Usage (json allowPlanned : Bool) : List String → Request → Prop
  | surface : Usage json allowPlanned ["surface"] (.surface json)
  | check {file : String} (h : IsFile file) : Usage json allowPlanned ["check", file] (.check file allowPlanned)

/-- The words without the empty ones between the command and its file. -/
def unblanked : List String → List String
  | [] => []
  | word :: rest => word :: if word = "check" then rest.dropWhile (· = "") else rest

structure Refuses (r : Result) : Prop where
  exit : r.exit = 2
  stdout : r.stdout = ""
  stderr : r.stderr ≠ ""

variable {seen : Seen} {args ws : List String} {arg word file : String} {json allowPlanned : Bool}
  {request : Request}

theorem usage_iff : Usage json allowPlanned ws request ↔
    ws = ["surface"] ∧ request = .surface json ∨
      ∃ file, ws = ["check", file] ∧ IsFile file ∧ request = .check file allowPlanned := by
  constructor
  · rintro (_ | hfile)
    · exact .inl ⟨rfl, rfl⟩
    · exact .inr ⟨_, rfl, hfile, rfl⟩
  · rintro (⟨rfl, rfl⟩ | ⟨file, rfl, hfile, rfl⟩)
    · exact .surface
    · exact .check hfile

theorem unblanked_eq (h : "" ∉ ws) : unblanked ws = ws := by
  obtain _ | ⟨word, rest⟩ := ws
  · rfl
  · have hkept : rest.dropWhile (· = "") = rest := by
      obtain _ | ⟨file, rest⟩ := rest
      · rfl
      · have hfile : ¬decide (file = "") = true := by
          rw [decide_eq_true_eq]
          rintro rfl
          exact h (List.mem_cons_of_mem _ List.mem_cons_self)
        rw [List.dropWhile_cons, if_neg hfile]
    rw [unblanked, hkept, ite_self]

def Seen.heed (seen : Seen) (args : List String) : Seen :=
  { seen with
    json := seen.json || args.contains "--json"
    allowPlanned := seen.allowPlanned || args.contains "--allow-unported" }

theorem heed_json (seen : Seen) (rest : List String) :
    ({ seen with json := true } : Seen).heed rest = seen.heed ("--json" :: rest) := by
  simp [Seen.heed]

theorem heed_allow (seen : Seen) (rest : List String) :
    ({ seen with allowPlanned := true } : Seen).heed rest = seen.heed ("--allow-unported" :: rest) := by
  simp [Seen.heed]

theorem heed_word (h : ¬IsFlag arg) (seen : Seen) (rest : List String) :
    seen.heed (arg :: rest) = seen.heed rest := by
  obtain ⟨hjson, hallow⟩ := not_or.mp h
  simp [Seen.heed, Ne.symm hjson, Ne.symm hallow]

theorem read_words (seen : Seen) (args : List String) :
    seen.read args = (seen.heed args).read (words args) := by
  induction args generalizing seen with
  | nil => simp [words, Seen.heed]
  | cons arg rest ih =>
      by_cases hflag : IsFlag arg
      · have hwords : words (arg :: rest) = words rest := List.filter_cons_of_neg (by simp [hflag])
        obtain rfl | rfl := hflag
        · rw [hwords, Seen.read, if_neg (by decide), if_pos rfl, ih, heed_json]
        · rw [hwords, Seen.read, if_neg (by decide), if_neg (by decide), if_pos rfl, ih, heed_allow]
      · have hwords : words (arg :: rest) = arg :: words rest := List.filter_cons_of_pos (by simp [hflag])
        obtain ⟨hjson, hallow⟩ := not_or.mp hflag
        rw [hwords, heed_word hflag, Seen.read, Seen.read]
        simp only [if_neg hjson, if_neg hallow, ih]
        rfl

def IsWord (arg : String) : Prop := ¬IsFlag arg ∧ ¬(arg = "--help" ∨ arg = "-h")

theorem isWord_of_mem (h : ¬HasHelp args) (hw : word ∈ words args) : IsWord word := by
  obtain ⟨hmem, hflag⟩ := List.mem_filter.mp hw
  refine ⟨by simpa using hflag, ?_⟩
  rintro (rfl | rfl)
  · exact h (.inl hmem)
  · exact h (.inr hmem)

theorem read_word (h : IsWord word) (seen : Seen) (rest : List String) :
    seen.read (word :: rest) =
      if isFlag word then .error (.unknownFlag word)
      else if seen.command = "" then
        if word = "surface" ∨ word = "check" then ({ seen with command := word } : Seen).read rest
        else .error (.unknownCommand word)
      else if seen.command = "check" ∧ seen.file = "" then ({ seen with file := word } : Seen).read rest
      else .error (.unexpected word) := by
  obtain ⟨hflag, hhelp⟩ := h
  obtain ⟨hjson, hallow⟩ := not_or.mp hflag
  rw [Seen.read, if_neg hhelp, if_neg hjson, if_neg hallow]

theorem isFile_iff : IsFile word ↔ word ≠ "" ∧ ¬isFlag word = true := by
  have hflag : isFlag word = true ↔ ['-'] <+: word.toList ∧ word ≠ "-" := by
    rw [isFlag, Bool.and_eq_true, List.isPrefixOf_iff_prefix, bne_iff_ne]
    rfl
  rw [IsFile, hflag, Classical.not_and_iff_not_or_not, ne_eq word "-", Classical.not_not,
    or_comm (a := word = "-")]

theorem ne_empty_of_isFlag (h : isFlag word = true) : word ≠ "" := by
  rintro rfl
  exact absurd h (by decide)

theorem read_complete_iff (hws : ∀ w ∈ ws, IsWord w) (hcommand : seen.command ≠ "")
    (hfile : ¬(seen.command = "check" ∧ seen.file = "")) :
    seen.read ws = .ok request ↔ ws = [] ∧ seen.read [] = .ok request := by
  obtain _ | ⟨word, rest⟩ := ws
  · simp
  · rw [read_word (hws word List.mem_cons_self), if_neg hcommand, if_neg hfile]
    split_ifs <;> simp

theorem read_file_iff (hws : ∀ w ∈ ws, IsWord w) :
    (⟨"check", "", json, allowPlanned⟩ : Seen).read ws = .ok request ↔
      ∃ file, ws.dropWhile (· = "") = [file] ∧ IsFile file ∧ request = .check file allowPlanned := by
  have hcheck : ¬"check" = "" := by decide
  induction ws with
  | nil =>
      rw [Seen.read, if_neg hcheck, if_neg (show ¬"check" = "surface" by decide), if_pos rfl]
      simp
  | cons word rest ih =>
      have hrest : ∀ w ∈ rest, IsWord w := fun w hw => hws w (List.mem_cons_of_mem word hw)
      rw [read_word (hws word List.mem_cons_self), if_neg hcheck,
        if_pos (show "check" = "check" ∧ "" = "" from ⟨rfl, rfl⟩)]
      by_cases hflag : isFlag word = true
      · have hne := ne_empty_of_isFlag hflag
        rw [if_pos hflag, List.dropWhile_cons_of_neg (by simpa using hne)]
        simp [isFile_iff, hflag]
      · rw [if_neg hflag]
        by_cases hempty : word = ""
        · subst hempty
          exact ih hrest
        · have hfile : IsFile word := isFile_iff.mpr ⟨hempty, hflag⟩
          rw [read_complete_iff hrest hcheck fun h => hempty h.2, List.dropWhile_cons_of_neg (by simpa using hempty)]
          have hread : (⟨"check", word, json, allowPlanned⟩ : Seen).read [] = .ok (.check word allowPlanned) := by
            rw [Seen.read, if_neg hcheck, if_neg (show ¬"check" = "surface" by decide), if_neg hempty]
          rw [hread]
          constructor
          · rintro ⟨rfl, hrequest⟩
            exact ⟨word, rfl, hfile, (Except.ok.inj hrequest).symm⟩
          · rintro ⟨file, hlast, -, rfl⟩
            cases hlast
            exact ⟨rfl, rfl⟩

theorem read_usage_iff (hws : ∀ w ∈ ws, IsWord w) :
    (⟨"", "", json, allowPlanned⟩ : Seen).read ws = .ok request ↔
      Usage json allowPlanned (unblanked ws) request := by
  rw [usage_iff]
  obtain _ | ⟨word, rest⟩ := ws
  · simp [Seen.read, unblanked]
  · have hrest : ∀ w ∈ rest, IsWord w := fun w hw => hws w (List.mem_cons_of_mem word hw)
    rw [read_word (hws word List.mem_cons_self), unblanked, if_pos rfl]
    by_cases hsurface : word = "surface"
    · subst hsurface
      have hread : (⟨"surface", "", json, allowPlanned⟩ : Seen).read [] = .ok (.surface json) := rfl
      have hother : ¬"surface" = "check" := by decide
      rw [if_neg (by decide), if_pos (.inl rfl), if_neg hother,
        read_complete_iff hrest (show ¬"surface" = "" by decide) fun h => hother h.1, hread]
      simp [eq_comm (a := request)]
    · by_cases hcheck : word = "check"
      · subst hcheck
        rw [if_neg (by decide), if_pos (.inr rfl), if_pos rfl, read_file_iff hrest]
        simp
      · rw [if_neg (not_or.mpr ⟨hsurface, hcheck⟩), if_neg hcheck]
        refine iff_of_false (by split_ifs <;> simp) ?_
        simp [hsurface, hcheck]

theorem ofArgs_iff (h : ¬HasHelp args) :
    Request.ofArgs args = .ok request ↔
      Usage (args.contains "--json") (args.contains "--allow-unported") (unblanked (words args)) request := by
  rw [Request.ofArgs, read_words]
  simp only [Seen.heed, Bool.false_or]
  exact read_usage_iff fun w hw => isWord_of_mem h hw

theorem refuses_complaint (text : String) : Refuses (complaint 2 text) := by
  refine ⟨rfl, rfl, fun h => ?_⟩
  have hlength := congrArg String.length h
  simp [complaint, String.length_append] at hlength

theorem check_exit (source : List Char) (allowPlanned : Bool) :
    (check source allowPlanned).exit = 0 ∨ (check source allowPlanned).exit = 1 := by
  unfold check
  dsimp only
  split
  · exact .inr rfl
  · exact .inl rfl

theorem checkFile_exit (file : String) (allowPlanned : Bool) (stdin : String) (files : String → Source) :
    (checkFile file allowPlanned stdin files).exit = 0 ∨
      (checkFile file allowPlanned stdin files).exit = 1 := by
  unfold checkFile
  split
  · exact check_exit _ _
  · split
    · exact .inr rfl
    · exact .inr rfl
    · exact .inr rfl
    · split
      · exact check_exit _ _
      · exact .inr rfl

theorem run_exit (h : Request.ofArgs args = .ok request) (stdin : String) (files : String → Source) :
    (run args stdin files).exit = 0 ∨ (run args stdin files).exit = 1 := by
  rw [run, h]
  cases request with
  | help | surface => exact .inl rfl
  | check file allowPlanned => exact checkFile_exit file allowPlanned stdin files

theorem refuses_iff (args : List String) (stdin : String) (files : String → Source) :
    Refuses (run args stdin files) ↔ ∀ request, Request.ofArgs args ≠ .ok request := by
  cases hargs : Request.ofArgs args with
  | error refusal =>
      refine iff_of_true ?_ fun request h => nomatch h
      rw [run, hargs]
      exact refuses_complaint refusal.message
  | ok request =>
      refine iff_of_false (fun h => ?_) fun h => h request rfl
      have hexit := run_exit hargs stdin files
      rw [h.exit] at hexit
      simp at hexit

theorem run_congr {args' : List String} (hwords : words args' = words args)
    (hflags : ∀ flag, IsFlag flag → (flag ∈ args' ↔ flag ∈ args)) (stdin : String) (files : String → Source) :
    run args' stdin files = run args stdin files := by
  have hcontains {flag : String} (h : IsFlag flag) : args'.contains flag = args.contains flag := by
    rw [Bool.eq_iff_iff, List.contains_iff_mem, List.contains_iff_mem]
    exact hflags flag h
  have hargs : Request.ofArgs args' = Request.ofArgs args := by
    rw [Request.ofArgs, Request.ofArgs, read_words {} args', read_words {} args, hwords, Seen.heed, Seen.heed,
      hcontains (.inl rfl), hcontains (.inr rfl)]
  rw [run, run, hargs]

/-- Without a call for help, the command line refuses its arguments exactly where they are no command after the
flags and the empty words before a file are left out; otherwise it does what they ask for, and ends with 0 or 1.
Without empty arguments nothing but the flags is left out. Where the flags stand and how often does not
matter. -/
theorem run_refuses_iff (hhelp : ¬HasHelp args) (stdin : String) (files : String → Source) :
    (Refuses (run args stdin files) ↔
        ∀ request, ¬Usage (args.contains "--json") (args.contains "--allow-unported")
          (unblanked (words args)) request) ∧
      (∀ request, Usage (args.contains "--json") (args.contains "--allow-unported")
          (unblanked (words args)) request →
        Request.ofArgs args = .ok request ∧
          ((run args stdin files).exit = 0 ∨ (run args stdin files).exit = 1)) ∧
      ("" ∉ args → unblanked (words args) = words args) ∧
      ∀ args', words args' = words args → (∀ flag, IsFlag flag → (flag ∈ args' ↔ flag ∈ args)) →
        run args' stdin files = run args stdin files := by
  refine ⟨?_, fun request husage => ?_, fun hempty => ?_, fun args' hwords hflags => ?_⟩
  · rw [refuses_iff]
    exact forall_congr' fun request => not_congr (ofArgs_iff hhelp)
  · have hargs := (ofArgs_iff hhelp).mpr husage
    exact ⟨hargs, run_exit hargs stdin files⟩
  · exact unblanked_eq fun h => hempty (List.mem_filter.mp h).1
  · exact run_congr hwords hflags stdin files

/-- Flags around an empty word and the file. -/
theorem run_refuses_iff_blank :
    ¬HasHelp ["--json", "check", "", "--allow-unported", "refs.txt", "--json"] ∧
      Request.ofArgs ["--json", "check", "", "--allow-unported", "refs.txt", "--json"] =
        .ok (.check "refs.txt" true) ∧
      ¬Refuses (run ["--json", "check", "", "--allow-unported", "refs.txt", "--json"] "" fun _ => .noSuchFile) := by
  have hhelp : ¬HasHelp ["--json", "check", "", "--allow-unported", "refs.txt", "--json"] := by decide
  have husage : Usage true true ["check", "refs.txt"] (.check "refs.txt" true) :=
    .check ⟨by decide, .inr (by decide)⟩
  obtain ⟨hrefuses, hasks, -, -⟩ := run_refuses_iff hhelp "" fun _ => .noSuchFile
  exact ⟨hhelp, (hasks _ husage).1, fun h => hrefuses.mp h _ husage⟩

/-- An empty word before the file does not count as a file, and no word is one too many: no command is given, yet
the references are read and nothing is refused. -/
theorem empty_file_passed :
    (∀ request, ¬Usage false false (words ["check", "", "-"]) request) ∧
      run ["check", "", "-"] "" (fun _ => .noSuchFile) = ⟨0, "", ""⟩ := by
  refine ⟨fun request h => ?_, by decide⟩
  have hwords : words ["check", "", "-"] = ["check", "", "-"] := by decide
  rw [hwords, usage_iff] at h
  simp at h

end BaseLib.Command
