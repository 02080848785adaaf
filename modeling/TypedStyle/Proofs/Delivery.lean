import TypedStyle.CommandLine.Run
import TypedStyle.Proofs.Usage
import Mathlib.Data.List.Basic

set_option autoImplicit false

namespace TypedStyle.CommandLine

namespace Files

variable {σ : Type} (files : Files (StateM σ))

/-- Each access succeeds or fails as a whole: reading and what fails leave all as it was, and what
has been written is read again. -/
structure Whole : Prop where
  read_same (path : String) (state : σ) : ((files.read path).run state).2 = state
  write_error {path : String} {contents : ByteArray} {before after : σ} {error : FileError} :
    (files.write path contents).run before = (.error error, after) → after = before
  write_ok {path : String} {contents : ByteArray} {before after : σ} :
    (files.write path contents).run before = (.ok (), after) →
      ((files.read path).run after).1 = .ok contents

def Holds (state : σ) (path text : String) : Prop :=
  ((files.read path).run state).1 = .ok text.toUTF8

def CanWrite (state : σ) (path text : String) : Prop :=
  ((files.write path text.toUTF8).run state).1 = .ok ()

end Files

theorem fromUTF8?_eq_some_iff {bytes : ByteArray} {text : String} :
    String.fromUTF8? bytes = some text ↔ bytes = text.toUTF8 := by
  rw [String.fromUTF8?, String.toUTF8]
  constructor
  · intro h
    split at h
    · cases h
      rfl
    · cases h
  · rintro rfl
    rw [dif_pos text.isValidUTF8]
    rfl

def Job.options (job : Job) : CompileOptions :=
  ⟨fileName job.input, job.indent⟩

section Process

variable {job : Job} {source css : String}

theorem process_eq_none_iff : process job source = .ok none ↔
    job.checkOnly ∧ ∃ sheet, checkSource source job.options = .ok sheet := by
  rw [process]
  cases job.checkOnly with
  | true =>
    simp only [if_true, true_and]
    cases h : checkSource source _ <;> simp [Job.options, h, Except.map]
  | false =>
    simp only [Bool.false_eq_true, if_false, false_and, iff_false]
    cases compileSource source _ <;> simp [Except.map]

theorem process_eq_some_iff : process job source = .ok (some css) ↔
    ¬job.checkOnly ∧ compileSource source job.options = .ok css := by
  rw [process]
  cases job.checkOnly with
  | true =>
    simp only [if_true, not_true, false_and, iff_false]
    cases checkSource source _ <;> simp [Except.map]
  | false =>
    simp only [Bool.false_eq_true, if_false, not_false_iff, true_and]
    cases h : compileSource source _ <;> simp [Job.options, h, Except.map]

end Process

/-- The text is the output, or the content of the file for it. -/
def Files.Delivered {σ : Type} (files : Files (StateM σ)) (job : Job) (outcome : Outcome)
    (before after : σ) (css : String) : Prop :=
  match job.output with
  | none => outcome.output = css ∧ after = before
  | some path => outcome.output = "" ∧ files.Holds after path css

section Ends

variable {σ : Type} {files : Files (StateM σ)} {arguments : List String} {job : Job}
  {before after : σ} {outcome : Outcome}

inductive Ends (files : Files (StateM σ)) (job : Job) (before : σ) : Outcome → σ → Prop
  | unread (log : String) : (∀ source, ¬files.Holds before job.input source) →
      Ends files job before (.failure log) before
  | refused {source : String} {error : CompileError} (log : String) :
      files.Holds before job.input source → process job source = .error error →
      Ends files job before (.failure log) before
  | checked {source : String} : files.Holds before job.input source →
      process job source = .ok none → Ends files job before (.success "") before
  | printed {source css : String} : files.Holds before job.input source →
      process job source = .ok (some css) → job.output = none →
      Ends files job before (.success css) before
  | unwritten {source css path : String} (log : String) : files.Holds before job.input source →
      process job source = .ok (some css) → job.output = some path →
      ¬files.CanWrite before path css → Ends files job before (.failure log) before
  | written {source css path : String} {after : σ} : files.Holds before job.input source →
      process job source = .ok (some css) → job.output = some path →
      files.CanWrite before path css → files.Holds after path css →
      Ends files job before (.success "") after

theorem deliver_ends (hw : files.Whole) {source css : String}
    (hh : files.Holds before job.input source) (hp : process job source = .ok (some css)) :
    Ends files job before ((deliver files job css).run before).1
      ((deliver files job css).run before).2 := by
  rw [deliver]
  cases ho : job.output with
  | none => exact .printed hh hp ho
  | some path =>
    dsimp only
    rw [StateT.run_bind]
    cases hr : (files.write path css.toUTF8).run before with
    | mk result after =>
      cases result with
      | ok _ =>
        have hcan : files.CanWrite before path css := congrArg Prod.fst hr
        exact .written hh hp ho hcan (hw.write_ok hr)
      | error error =>
        obtain rfl : after = before := hw.write_error hr
        refine .unwritten _ hh hp ho fun hcan => ?_
        rw [Files.CanWrite, hr] at hcan
        cases hcan

theorem compileFile_ends (hw : files.Whole) (job : Job) (before : σ) :
    Ends files job before ((compileFile files job).run before).1
      ((compileFile files job).run before).2 := by
  rw [compileFile, StateT.run_bind]
  have hsame := hw.read_same job.input before
  cases hr : (files.read job.input).run before with
  | mk result after =>
    rw [hr] at hsame
    obtain rfl : after = before := hsame
    have hread : ((files.read job.input).run after).1 = result := congrArg Prod.fst hr
    cases result with
    | error error =>
      refine .unread _ fun source hh => ?_
      rw [Files.Holds, hread] at hh
      cases hh
    | ok bytes =>
      cases hs : String.fromUTF8? bytes with
      | none =>
        dsimp only [bind]
        rw [hs]
        refine .unread _ fun source hh => ?_
        rw [Files.Holds, hread, Except.ok.injEq, ← fromUTF8?_eq_some_iff, hs] at hh
        cases hh
      | some source =>
        have hh : files.Holds after job.input source := by
          rw [Files.Holds, hread, fromUTF8?_eq_some_iff.mp hs]
        dsimp only [bind]
        rw [hs]
        dsimp only
        cases hp : process job source with
        | error error => exact .refused _ hh hp
        | ok text =>
          cases text with
          | none => exact .checked hh hp
          | some css => exact deliver_ends hw hh hp

theorem run_ends (hw : files.Whole) (h : Usage arguments job) (before : σ) :
    ∃ outcome after, (run files arguments).run before = (outcome, after) ∧
      Ends files job before outcome after := by
  rw [run, parseArguments_eq_compile_iff.mpr h]
  exact ⟨_, _, rfl, compileFile_ends hw job before⟩

theorem Files.Holds.unique {state : σ} {path text other : String} (h : files.Holds state path text)
    (ho : files.Holds state path other) : text = other := by
  rw [Holds] at h ho
  rw [h, Except.ok.injEq] at ho
  exact String.toByteArray_inj.mp ho

namespace Ends

theorem untouched (h : Ends files job before outcome after)
    (hcase : outcome.exit ≠ 0 ∨ job.checkOnly) : outcome.output = "" ∧ after = before := by
  cases h with
  | unread | refused | checked | unwritten => exact ⟨rfl, rfl⟩
  | printed _ hp | written _ hp =>
    rcases hcase with hexit | hcheck
    · exact absurd rfl hexit
    · exact absurd hcheck (process_eq_some_iff.mp hp).1

theorem check_iff (h : Ends files job before outcome after) (hcheck : job.checkOnly) :
    outcome.exit = 0 ↔ ∃ source, files.Holds before job.input source ∧
      ∃ sheet, checkSource source job.options = .ok sheet := by
  cases h with
  | unread log hn =>
    refine ⟨nofun, fun ⟨source, hh, _⟩ => absurd hh (hn source)⟩
  | refused log hh hp =>
    refine ⟨nofun, fun ⟨other, ho, hs⟩ => ?_⟩
    rw [← hh.unique ho] at hs
    rw [process_eq_none_iff.mpr ⟨hcheck, hs⟩] at hp
    cases hp
  | checked hh hp => exact ⟨fun _ => ⟨_, hh, (process_eq_none_iff.mp hp).2⟩, fun _ => rfl⟩
  | printed _ hp | unwritten _ _ hp | written _ hp =>
    exact absurd hcheck (process_eq_some_iff.mp hp).1

theorem compile_iff (h : Ends files job before outcome after) (hcheck : ¬job.checkOnly) :
    outcome.exit = 0 ↔ ∃ source css, files.Holds before job.input source ∧
      compileSource source job.options = .ok css ∧
      ∀ path ∈ job.output, files.CanWrite before path css := by
  cases h with
  | unread log hn =>
    refine ⟨nofun, fun ⟨source, _, hh, _⟩ => absurd hh (hn source)⟩
  | refused log hh hp =>
    refine ⟨nofun, fun ⟨other, css, ho, hc, _⟩ => ?_⟩
    rw [← hh.unique ho] at hc
    rw [process_eq_some_iff.mpr ⟨hcheck, hc⟩] at hp
    cases hp
  | checked _ hp => exact absurd (process_eq_none_iff.mp hp).1 hcheck
  | printed hh hp ho =>
    refine ⟨fun _ => ⟨_, _, hh, (process_eq_some_iff.mp hp).2, ?_⟩, fun _ => rfl⟩
    rw [ho]
    nofun
  | unwritten log hh hp ho hn =>
    refine ⟨nofun, fun ⟨other, css, hother, hc, hcan⟩ => ?_⟩
    rw [← hh.unique hother] at hc
    rw [process_eq_some_iff.mpr ⟨hcheck, hc⟩] at hp
    cases hp
    exact absurd (hcan _ ho) hn
  | written hh hp ho hcan _ =>
    refine ⟨fun _ => ⟨_, _, hh, (process_eq_some_iff.mp hp).2, ?_⟩, fun _ => rfl⟩
    rw [ho]
    rintro path ⟨⟩
    exact hcan

theorem delivered (h : Ends files job before outcome after) (hcheck : ¬job.checkOnly)
    (hexit : outcome.exit = 0) {source css : String} (hh : files.Holds before job.input source)
    (hc : compileSource source job.options = .ok css) :
    files.Delivered job outcome before after css := by
  cases h with
  | unread | refused | unwritten => cases hexit
  | checked _ hp => exact absurd (process_eq_none_iff.mp hp).1 hcheck
  | printed ho hp hout =>
    rw [ho.unique hh, process_eq_some_iff, hc] at hp
    obtain ⟨-, ⟨⟩⟩ := hp
    rw [Files.Delivered, hout]
    exact ⟨rfl, rfl⟩
  | written ho hp hout _ hafter =>
    rw [ho.unique hh, process_eq_some_iff, hc] at hp
    obtain ⟨-, ⟨⟩⟩ := hp
    rw [Files.Delivered, hout]
    exact ⟨rfl, hafter⟩

end Ends

end Ends

/-- A run that fails or only checks leaves no output and all files as they were. A check succeeds
if there is a text to be checked and it is fine; any other run succeeds if there is a text, it is
compiled and can be written, and then just the compiled text has been delivered. -/
theorem run_delivers {σ : Type} {files : Files (StateM σ)} (hw : files.Whole)
    {arguments : List String} {job : Job} (h : Usage arguments job) (before : σ) :
    ∃ outcome after, (run files arguments).run before = (outcome, after) ∧
      (outcome.exit ≠ 0 ∨ job.checkOnly → outcome.output = "" ∧ after = before) ∧
      (job.checkOnly → (outcome.exit = 0 ↔ ∃ source, files.Holds before job.input source ∧
        ∃ sheet, checkSource source job.options = .ok sheet)) ∧
      (¬job.checkOnly → (outcome.exit = 0 ↔ ∃ source css, files.Holds before job.input source ∧
        compileSource source job.options = .ok css ∧
        ∀ path ∈ job.output, files.CanWrite before path css)) ∧
      (¬job.checkOnly → outcome.exit = 0 → ∀ source css, files.Holds before job.input source →
        compileSource source job.options = .ok css →
        files.Delivered job outcome before after css) := by
  obtain ⟨outcome, after, hrun, hends⟩ := run_ends hw h before
  exact ⟨outcome, after, hrun, hends.untouched, hends.check_iff, hends.compile_iff,
    fun hcheck hexit _ _ => hends.delivered hcheck hexit⟩

namespace Directory

variable {directory after : Directory} {place start : List String} {path : String}
  {contents : ByteArray}

theorem write_eq_ok (h : directory.write path contents = .ok after) :
    ∃ place, directory.locate path (parts path) = .ok place ∧ directory.isFolder place = false ∧
      after = ⟨(place, contents) :: directory.files.filter (·.1 != place)⟩ := by
  rw [write] at h
  split at h
  · cases hl : directory.locate path ((dropSlashes (parts path)).dropLast ++ [""]) <;>
      (rw [hl] at h; cases h)
  · cases hl : directory.locate path (parts path) with
    | error error =>
      rw [hl] at h
      cases h
    | ok place =>
      rw [hl] at h
      cases hf : directory.isFolder place with
      | true =>
        simp only [bind, Except.bind, hf] at h
        cases h
      | false =>
        simp only [bind, Except.bind, hf] at h
        cases h
        exact ⟨place, rfl, hf, rfl⟩

theorem isFolder_cons (h : directory.isFolder place = true) (written : List String)
    (contents : ByteArray) : isFolder
      ⟨(written, contents) :: directory.files.filter (·.1 != written)⟩ place = true := by
  rw [isFolder, Bool.or_eq_true, List.any_eq_true] at h ⊢
  refine h.imp_right fun ⟨file, hm, hfile⟩ => ?_
  by_cases he : file.1 = written
  · exact ⟨(written, contents), List.mem_cons_self, he ▸ hfile⟩
  · exact ⟨file, List.mem_cons_of_mem _ (List.mem_filter.mpr ⟨hm, by simpa using he⟩), hfile⟩

theorem follow_of_isFolder (hf : ∀ place, directory.isFolder place → after.isFolder place)
    {parts : List String} (h : directory.follow start parts = .ok place) :
    after.follow start parts = .ok place := by
  induction parts generalizing start with
  | nil => exact h
  | cons part rest ih =>
    rw [follow] at h ⊢
    cases hs : directory.isFolder start with
    | false =>
      rw [hs] at h
      simp only [Bool.false_eq_true, if_false] at h
      split at h <;> cases h
    | true =>
      rw [if_pos hs] at h
      rw [if_pos (hf start hs)]
      by_cases hstay : part = "" ∨ part = "."
      · rw [if_pos hstay] at h ⊢
        exact ih h
      rw [if_neg hstay] at h ⊢
      by_cases hup : part = ".." ∧ (!start.all fun part => part == "..") = true
      · rw [if_pos hup] at h ⊢
        exact ih h
      rw [if_neg hup] at h ⊢
      by_cases hlong : partLimit < part.utf8ByteSize
      · rw [if_pos hlong] at h
        cases h
      rw [if_neg hlong] at h ⊢
      exact ih h

theorem read_of_write (h : directory.write path contents = .ok after) :
    after.read path = .ok contents := by
  obtain ⟨place, hl, hf, rfl⟩ := write_eq_ok h
  have hlocate : locate ⟨(place, contents) :: directory.files.filter (·.1 != place)⟩ path
      (parts path) = .ok place := by
    rw [locate] at hl ⊢
    by_cases hlong : pathLimit < path.utf8ByteSize
    · rw [if_pos hlong] at hl
      cases hl
    · rw [if_neg hlong] at hl ⊢
      exact follow_of_isFolder (fun _ hf => isFolder_cons hf place contents) hl
  rw [read, hlocate]
  simp only [bind, Except.bind, contents?, List.lookup_cons_self]
  rfl

theorem run_write (directory : Directory) (path : String) (contents : ByteArray) :
    (access.write path contents).run directory = match directory.write path contents with
      | .ok after => (.ok (), after)
      | .error error => (.error error, directory) := by
  cases h : directory.write path contents with
  | ok after =>
    simp only [access, StateT.run_bind, StateT.run_get, pure_bind, h, StateT.run_set]
    rfl
  | error error =>
    simp only [access, StateT.run_bind, StateT.run_get, pure_bind, h]
    rfl

theorem whole : access.Whole where
  read_same _ _ := rfl
  write_error {path contents before after error} h := by
    rw [run_write] at h
    split at h <;> cases h
    rfl
  write_ok {path contents before after} h := by
    rw [run_write] at h
    split at h
    · next hw =>
      cases h
      exact read_of_write hw
    · cases h

end Directory

/-- The result takes the place of the input. -/
theorem run_delivers_in_place :
    let directory : Directory := ⟨[(["a"], "a\x7bwidth:2px;\x7d".toUTF8)]⟩
    let job : Job := ⟨"a", some "a", false, 2⟩
    Directory.access.Whole ∧ Usage ["a", "-o", "a"] job ∧
      ∃ outcome after, (run Directory.access ["a", "-o", "a"]).run directory = (outcome, after) ∧
        outcome.exit = 0 ∧ outcome.output = "" ∧
        Directory.access.Holds after "a" "a \x7b\n  width: 2px;\n\x7d\n" := by
  intro directory job
  have hparts : Directory.parts "a" = ["a"] := by
    rw [Directory.parts, String.splitOn, if_neg (by decide), String.splitOnAux,
      if_neg (by decide), if_neg (by decide), String.splitOnAux, if_pos (by decide)]
    decide
  have hstart : "a".startsWith "/" = false := by decide +kernel
  have hend : "a".endsWith "/" = false := by decide +kernel
  have hname : fileName "a" = "a" := by
    rw [fileName, hparts]
    decide
  have husage : Usage ["a", "-o", "a"] job := parseArguments_eq_compile_iff.mp (by decide)
  have hread : Directory.access.Holds directory "a" "a\x7bwidth:2px;\x7d" := by
    change directory.read "a" = _
    rw [Directory.read, hparts, Directory.locate, hstart]
    rfl
  have hcompile : compileSource "a\x7bwidth:2px;\x7d" job.options =
      .ok "a \x7b\n  width: 2px;\n\x7d\n" := by
    rw [Job.options, hname]
    decide +kernel
  have hwrite : Directory.access.CanWrite directory "a" "a \x7b\n  width: 2px;\n\x7d\n" := by
    have hok : ∃ after, directory.write "a" "a \x7b\n  width: 2px;\n\x7d\n".toUTF8 = .ok after := by
      rw [Directory.write, hend, if_neg (by decide), hparts, Directory.locate, hstart]
      exact ⟨_, rfl⟩
    obtain ⟨after, hok⟩ := hok
    rw [Files.CanWrite, Directory.run_write, hok]
  obtain ⟨outcome, after, hrun, -, -, hexit, hdelivered⟩ :=
    run_delivers Directory.whole husage directory
  have hzero : outcome.exit = 0 := by
    refine (hexit (by decide)).mpr ⟨_, _, hread, hcompile, ?_⟩
    rintro path ⟨⟩
    exact hwrite
  obtain ⟨houtput, hafter⟩ := hdelivered (by decide) hzero _ _ hread hcompile
  exact ⟨Directory.whole, husage, outcome, after, hrun, hzero, houtput, hafter⟩

end TypedStyle.CommandLine
