import TypedStyle.CommandLine.Arguments

set_option autoImplicit false

namespace TypedStyle.CommandLine

inductive Setting where
  | input (path : String)
  | output (path : String)
  | check
  | indent (width : Nat)
  deriving Repr, DecidableEq

def IsPlain (text : String) : Prop :=
  text = "-" ∨ text.toList.head? ≠ some '-'

def IsIndent (text : String) (width : Nat) : Prop :=
  Text.unsigned? text.toList = some width ∧ width < UInt64.size

/-- The arguments that give a setting. A value stands in the argument of its flag, or in the next
one, where it has to be plain. -/
inductive Setting.Spelt : List String → Setting → Prop
  | input {path : String} : IsPlain path → path ≠ "" → Spelt [path] (.input path)
  | output {flag path : String} : flag ∈ ["-o", "--output"] → IsPlain path → path ≠ "" →
      Spelt [flag, path] (.output path)
  | outputWithin {flag path : String} : flag ∈ ["-o=", "--output="] → path ≠ "" →
      Spelt [flag ++ path] (.output path)
  | outputBehind {path : String} : path ≠ "" → path.toList.head? ≠ some '=' →
      Spelt ["-o" ++ path] (.output path)
  | check : Spelt ["--check"] .check
  | indent {text : String} {width : Nat} : IsPlain text → IsIndent text width →
      Spelt ["--indent", text] (.indent width)
  | indentWithin {text : String} {width : Nat} : IsIndent text width →
      Spelt ["--indent=" ++ text] (.indent width)

/-- Settings one after the other, and inputs behind two dashes. -/
inductive Settings : List String → List Setting → Prop
  | nil : Settings [] []
  | cons {front rest : List String} {setting : Setting} {settings : List Setting} :
      setting.Spelt front → Settings rest settings →
      Settings (front ++ rest) (setting :: settings)
  | inputs {paths : List String} : (∀ path ∈ paths, path ≠ "") →
      Settings ("--" :: paths) (paths.map .input)

def Flag.long : Flag → String
  | .output => "output"
  | .check => "check"
  | .indent => "indent"
  | .help => "help"
  | .version => "version"

theorem Flag.ofLong?_eq_some {name : String} {flag : Flag} (h : ofLong? name = some flag) :
    name = flag.long := by
  unfold ofLong? at h
  split at h <;> cases h <;> rfl

def Flag.short? : Flag → Option Char
  | .output => some 'o'
  | .help => some 'h'
  | .version => some 'V'
  | .check | .indent => none

theorem Flag.short?_of_ofShort? {letter : Char} {flag : Flag} (h : ofShort? letter = some flag) :
    flag.short? = some letter := by
  unfold ofShort? at h
  split at h <;> cases h <;> rfl

namespace Argument

variable {text value : String} {flag : Flag}

theorem ofText_of_isPlain (h : IsPlain text) : ofText text = .plain text := by
  rcases h with rfl | h
  · rfl
  · rw [ofText]
    split <;> simp_all

theorem ofText_long (name : String) (hf : Flag.ofLong? name = some flag) (hn : '=' ∉ name.toList)
    (ht : text.toList = '-' :: '-' :: (name.toList ++ '=' :: value.toList)) :
    ofText text = .flag flag (some value) := by
  have hall : ∀ c ∈ name.toList, decide (c ≠ '=') = true := by
    intro c hc
    exact decide_eq_true fun he => hn (he ▸ hc)
  have hname : (name.toList ++ '=' :: value.toList).takeWhile (· ≠ '=') = name.toList := by
    rw [List.takeWhile_append_of_pos hall, List.takeWhile_cons_of_neg (by simp), List.append_nil]
  have hvalue : longValue? (name.toList ++ '=' :: value.toList) = some value := by
    rw [longValue?, List.dropWhile_append_of_pos hall, List.dropWhile_cons_of_neg (by simp)]
    exact congrArg some String.ofList_toList
  rw [ofText, ht]
  split
  · next h => simp at h
  · next h =>
    cases h
    rw [hname, String.ofList_toList, hf, hvalue]
  · next hlong h =>
    cases h
    exact (hlong rfl).elim
  · next hlong _ => exact absurd rfl (hlong _)

theorem ofText_short (letter : Char) (rest : List Char) {value : Option String}
    (hf : Flag.ofShort? letter = some flag) (hv : flag.takesValue)
    (hr : shortValue? rest = value) (ht : text.toList = '-' :: letter :: rest) :
    ofText text = .flag flag value := by
  have hl : letter ≠ '-' := by
    rintro rfl
    cases hf
  rw [ofText, ht]
  split
  · next h => simp_all
  · next h => simp_all
  · next h =>
    cases h
    simp only [hf, if_pos hv, hr]
  · next hshort => exact absurd rfl (hshort _ _)

theorem isPlain_of_ofText {other : String} (h : ofText text = .plain other) :
    IsPlain text ∧ other = text := by
  rw [ofText] at h
  split at h
  · cases h
  · split at h <;> cases h
  · split at h <;> cases h
  · next hdashes hlong hshort =>
    cases h
    refine ⟨?_, rfl⟩
    cases hl : text.toList with
    | nil => exact .inr (by simp [hl])
    | cons c rest =>
      cases rest with
      | cons letter rest => exact .inr fun hc => hshort letter rest (by simp_all)
      | nil =>
        by_cases hc : c = '-'
        · exact .inl (String.toList_injective (by rw [hl, hc]; rfl))
        · exact .inr (by simpa [hl] using hc)

theorem eq_of_terminator (h : ofText text = .terminator) : text = "--" := by
  rw [ofText] at h
  split at h
  · next hl => exact String.toList_injective hl
  · split at h <;> cases h
  · split at h <;> cases h
  · cases h

theorem longValue?_split (long : List Char) : long =
    long.takeWhile (· ≠ '=') ++ (longValue? long).elim [] fun value => '=' :: value.toList := by
  have hsplit := List.takeWhile_append_dropWhile (p := (· ≠ '=')) (l := long)
  have hhead := List.head?_dropWhile_not (· ≠ '=') long
  rw [longValue?]
  cases hd : long.dropWhile (· ≠ '=') with
  | nil =>
    rw [hd] at hsplit
    exact hsplit.symm
  | cons c value =>
    rw [hd] at hsplit hhead
    obtain rfl : c = '=' := by simpa using hhead
    simpa using hsplit.symm

theorem ofText_flag {value : Option String} (h : ofText text = .flag flag value) :
    (text = "--" ++ flag.long ++ value.elim "" ("=" ++ ·)) ∨
      ∃ letter rest, text.toList = '-' :: letter :: rest ∧ flag.short? = some letter ∧
        value = if flag.takesValue then shortValue? rest else none := by
  rw [ofText] at h
  split at h
  · cases h
  · next long _ hl =>
    split at h
    · next known hk =>
      cases h
      refine .inl (String.toList_injective ?_)
      have hname := Flag.ofLong?_eq_some hk
      have hsplit := longValue?_split long
      generalize longValue? long = value at hsplit
      rw [hl, hsplit, ← hname]
      cases value <;> simp
    · cases h
  · next letter rest _ _ hl =>
    split at h
    · next known hk =>
      cases h
      exact .inr ⟨letter, rest, hl, Flag.short?_of_ofShort? hk, rfl⟩
    · cases h
  · cases h

theorem mem_of_ofText_output (h : ofText text = .flag .output none) :
    text ∈ ["-o", "--output"] := by
  rcases ofText_flag h with rfl | ⟨letter, rest, hl, hk, hv⟩
  · exact List.mem_cons_of_mem _ (List.mem_singleton.mpr rfl)
  · cases hk
    change none = shortValue? rest at hv
    rw [shortValue?.eq_def] at hv
    split at hv
    · exact List.mem_cons.mpr (.inl (String.toList_injective hl))
    · cases hv
    · cases hv

theorem spelt_output (h : ofText text = .flag .output (some value)) (hv : value ≠ "") :
    Setting.Spelt [text] (.output value) := by
  rcases ofText_flag h with rfl | ⟨letter, rest, hl, hk, hvalue⟩
  · exact @Setting.Spelt.outputWithin "--output=" value (by simp) hv
  · cases hk
    change some value = shortValue? rest at hvalue
    rw [shortValue?.eq_def] at hvalue
    split at hvalue
    · cases hvalue
    · next path =>
      cases hvalue
      have htext : text = "-o=" ++ String.ofList path :=
        String.toList_injective (by simp [hl])
      exact htext ▸ .outputWithin (by simp) hv
    · next hnil hmark =>
      cases hvalue
      have htext : text = "-o" ++ String.ofList rest := String.toList_injective (by simp [hl])
      refine htext ▸ .outputBehind hv fun hhead => ?_
      rw [String.toList_ofList, List.head?_eq_some_iff] at hhead
      obtain ⟨path, hpath⟩ := hhead
      exact hmark path hpath

theorem eq_of_ofText_check (h : ofText text = .flag .check none) : text = "--check" := by
  rcases ofText_flag h with rfl | ⟨letter, rest, hl, hk, hv⟩
  · rfl
  · cases hk

theorem eq_of_ofText_indent {value : Option String} (h : ofText text = .flag .indent value) :
    text = "--indent" ++ value.elim "" ("=" ++ ·) := by
  rcases ofText_flag h with rfl | ⟨letter, rest, hl, hk, hv⟩
  · rfl
  · cases hk

end Argument

namespace Setting

def alike : Setting → Setting → Bool
  | .input _, .input _ | .output _, .output _ | .check, .check | .indent _, .indent _ => true
  | _, _ => false

def Proper : Setting → Prop
  | .input path | .output path => path ≠ ""
  | .check => True
  | .indent width => width < UInt64.size

def add (given : Given) : Setting → Option Given
  | .input path => given.addInput path
  | .output path => given.addOutput path
  | .check => given.addCheck
  | .indent width => if given.indent.isNone then some { given with indent := some width } else none

end Setting

namespace Given

def settings (given : Given) : List Setting :=
  given.input.toList.map .input ++ given.output.toList.map .output ++
    (if given.check then [.check] else []) ++ given.indent.toList.map .indent

section Add

variable {given next final : Given} {setting : Setting} {more : List Setting}

theorem perm_of_add (h : setting.add given = some next) :
    next.settings.Perm (setting :: given.settings) := by
  refine List.perm_iff_count.mpr fun other => ?_
  cases setting <;>
    simp only [Setting.add, addInput, addOutput, addCheck, Option.ite_none_right_eq_some,
      Option.ite_none_left_eq_some, Option.some.injEq, Option.isNone_iff_eq_none] at h <;>
    obtain ⟨hnone, rfl⟩ := h <;>
    simp [settings, hnone, List.count_cons] <;> omega

theorem countP_alike_le (given : Given) (setting : Setting) :
    given.settings.countP setting.alike ≤ 1 := by
  cases setting with
  | input => cases h : given.input <;> cases hc : given.check <;>
      simp [settings, List.countP_cons, Setting.alike, Function.comp_def, h, hc]
  | output => cases h : given.output <;> cases hc : given.check <;>
      simp [settings, List.countP_cons, Setting.alike, Function.comp_def, h, hc]
  | check => cases hc : given.check <;>
      simp [settings, List.countP_cons, Setting.alike, Function.comp_def, hc]
  | indent => cases h : given.indent <;> cases hc : given.check <;>
      simp [settings, List.countP_cons, Setting.alike, Function.comp_def, h, hc]

theorem countP_alike_of_add (h : setting.add given = none) (hp : setting.Proper) :
    0 < given.settings.countP setting.alike := by
  rw [List.countP_pos_iff]
  cases setting with
  | input path =>
    have hgiven : given.input ≠ none := by simp_all [Setting.add, addInput, Setting.Proper]
    obtain ⟨other, ho⟩ := Option.ne_none_iff_exists'.mp hgiven
    exact ⟨.input other, by simp [settings, ho], rfl⟩
  | output path =>
    have hgiven : given.output ≠ none := by simp_all [Setting.add, addOutput, Setting.Proper]
    obtain ⟨other, ho⟩ := Option.ne_none_iff_exists'.mp hgiven
    exact ⟨.output other, by simp [settings, ho], rfl⟩
  | check =>
    have hgiven : given.check = true := by simp_all [Setting.add, addCheck]
    exact ⟨.check, by simp [settings, hgiven], rfl⟩
  | indent width =>
    have hgiven : given.indent ≠ none := by simp_all [Setting.add]
    obtain ⟨other, ho⟩ := Option.ne_none_iff_exists'.mp hgiven
    exact ⟨.indent other, by simp [settings, ho], rfl⟩

theorem eq_of_perm (h : final.settings.Perm given.settings) : final = given := by
  have hinput : final.input = given.input := Option.ext fun path => by
    simpa [settings] using h.mem_iff (a := Setting.input path)
  have houtput : final.output = given.output := Option.ext fun path => by
    simpa [settings] using h.mem_iff (a := Setting.output path)
  have hcheck : final.check = given.check := Bool.eq_iff_iff.mpr <| by
    simpa [settings] using h.mem_iff (a := Setting.check)
  have hindent : final.indent = given.indent := Option.ext fun width => by
    simpa [settings] using h.mem_iff (a := Setting.indent width)
  cases final
  cases given
  simp_all

/-- All settings can be added if no two of them are alike, in whichever order they come. -/
theorem foldlM_add_iff (hp : ∀ setting ∈ more, setting.Proper) :
    more.foldlM Setting.add given = some final ↔ final.settings.Perm (given.settings ++ more) := by
  induction more generalizing given with
  | nil =>
    rw [List.foldlM_nil, List.append_nil]
    constructor
    · rintro ⟨⟩
      exact .refl _
    · intro h
      rw [eq_of_perm h]
      rfl
  | cons setting more ih =>
    obtain ⟨hpart, hmore⟩ := List.forall_mem_cons.mp hp
    rw [List.foldlM_cons]
    cases hadd : setting.add given with
    | none =>
      refine ⟨nofun, fun hperm => ?_⟩
      -- a setting that is already given would be there twice
      have htwice := hperm.countP_eq setting.alike
      have hself : setting.alike setting = true := by cases setting <;> rfl
      rw [List.countP_append, List.countP_cons_of_pos hself] at htwice
      have hgiven := countP_alike_of_add hadd hpart
      have hfinal := countP_alike_le final setting
      omega
    | some next =>
      have hnext : (next.settings ++ more).Perm (given.settings ++ setting :: more) :=
        ((perm_of_add hadd).append_right more).trans List.perm_middle.symm
      rw [Option.bind_eq_bind, Option.bind_some, ih hmore]
      exact ⟨fun hperm => hperm.trans hnext, fun hperm => hperm.trans hnext.symm⟩

end Add

end Given

section Parse

variable {given next : Given} {front rest arguments : List String} {text : String}
  {setting : Setting} {job : Job}

theorem Setting.Spelt.proper (h : setting.Spelt front) : setting.Proper := by
  cases h with
  | check => trivial
  | input _ hp | output _ _ hp | outputWithin _ hp | outputBehind hp _ => exact hp
  | indent _ hi | indentWithin hi => exact hi.2

theorem Setting.Spelt.ne_nil (h : setting.Spelt front) : front ≠ [] := by
  cases h <;> simp

theorem addIndent_of_isIndent {width : Nat} (h : IsIndent text width) :
    given.addIndent text = (Setting.indent width).add given := by
  simp [Given.addIndent, Setting.add, h.1, h.2]

theorem isIndent_of_addIndent (h : given.addIndent text = some next) :
    ∃ width, IsIndent text width := by
  simp only [Given.addIndent, Option.bind_eq_bind, Option.bind_eq_some_iff,
    Option.ite_none_right_eq_some] at h
  obtain ⟨width, hu, ⟨-, hw⟩, -⟩ := h
  exact ⟨width, hu, hw⟩

theorem parseArguments_within {flag : Flag} {value : String}
    (h : Argument.ofText text = .flag flag (some value)) :
    parseArguments given (text :: rest) =
      (given.addValue flag value).bind (parseArguments · rest) := by
  rw [parseArguments, h]
  rfl

theorem parseArguments_behind {flag : Flag} {value : String} (hf : flag.takesValue)
    (h : Argument.ofText text = .flag flag none) (hv : IsPlain value) :
    parseArguments given (text :: value :: rest) =
      (given.addValue flag value).bind (parseArguments · rest) := by
  cases flag <;> cases hf <;>
    simp only [parseArguments, h, Argument.ofText_of_isPlain hv, Option.bind_eq_bind]

theorem parseArguments_of_spelt (h : setting.Spelt front) (rest : List String) :
    parseArguments given (front ++ rest) = (setting.add given).bind (parseArguments · rest) := by
  cases h with
  | input hp _ =>
    rw [List.singleton_append, parseArguments, Argument.ofText_of_isPlain hp]
    rfl
  | check => rfl
  | @output flag path hf hp _ =>
    have hflag : Argument.ofText flag = .flag .output none := by
      revert flag
      decide
    exact parseArguments_behind rfl hflag hp
  | @outputWithin flag path hf _ =>
    have hflag : Argument.ofText (flag ++ path) = .flag .output (some path) := by
      simp only [List.mem_cons, List.not_mem_nil, or_false] at hf
      rcases hf with rfl | rfl
      · exact Argument.ofText_short 'o' ('=' :: path.toList) rfl rfl
          (by simp [Argument.shortValue?]) (by simp)
      · exact Argument.ofText_long "output" rfl (by decide) (by simp)
    exact parseArguments_within hflag
  | @outputBehind path hp hh =>
    have hvalue : Argument.shortValue? path.toList = some path := by
      rw [Argument.shortValue?.eq_def]
      split
      · next hnil => exact absurd (String.toList_eq_nil_iff.mp hnil) hp
      · next heq => simp [heq] at hh
      · rw [String.ofList_toList]
    exact parseArguments_within (Argument.ofText_short 'o' _ rfl rfl hvalue (by simp))
  | indent hp hi =>
    rw [← addIndent_of_isIndent hi]
    exact @parseArguments_behind _ _ _ .indent _ rfl rfl hp
  | @indentWithin text width hi =>
    have hflag : Argument.ofText ("--indent=" ++ text) = .flag .indent (some text) :=
      Argument.ofText_long "indent" rfl (by decide) (by simp)
    rw [← addIndent_of_isIndent hi]
    exact parseArguments_within hflag

theorem exists_value_of_parse {flag : Flag} (hf : flag.takesValue)
    (ha : Argument.ofText text = .flag flag none)
    (h : parseArguments given (text :: rest) = some (.compile job)) :
    ∃ value behind, rest = value :: behind ∧ IsPlain value ∧
      ∃ next, given.addValue flag value = some next := by
  cases rest with
  | nil =>
    rw [parseArguments, ha] at h
    cases flag <;> cases hf <;> cases h
  | cons value behind =>
    cases hv : Argument.ofText value with
    | plain other =>
      obtain ⟨hp, rfl⟩ := Argument.isPlain_of_ofText hv
      rw [parseArguments_behind hf ha hp] at h
      obtain ⟨next, hadd, -⟩ := Option.bind_eq_some_iff.mp h
      exact ⟨other, behind, rfl, hp, next, hadd⟩
    | _ =>
      rw [parseArguments, ha] at h
      cases flag <;> cases hf <;> simp [hv] at h

theorem exists_spelt_of_parse (h : parseArguments given (text :: rest) = some (.compile job)) :
    text = "--" ∨ ∃ (setting : Setting) (front behind : List String),
      text :: rest = front ++ behind ∧ setting.Spelt front := by
  cases ha : Argument.ofText text with
  | terminator => exact .inl (Argument.eq_of_terminator ha)
  | unknown =>
    rw [parseArguments, ha] at h
    cases h
  | plain path =>
    rw [parseArguments, ha] at h
    obtain ⟨hp, rfl⟩ := Argument.isPlain_of_ofText ha
    obtain ⟨next, hadd, -⟩ := Option.bind_eq_some_iff.mp h
    have hpath : path ≠ "" := by simp_all [Given.addInput]
    exact .inr ⟨_, [path], rest, rfl, .input hp hpath⟩
  | flag flag value =>
    cases value with
    | some value =>
      rw [parseArguments_within ha] at h
      obtain ⟨next, hadd, -⟩ := Option.bind_eq_some_iff.mp h
      cases flag with
      | check | help | version => cases hadd
      | output =>
        have hvalue : value ≠ "" := by simp_all [Given.addValue, Given.addOutput]
        exact .inr ⟨_, [text], rest, rfl, Argument.spelt_output ha hvalue⟩
      | indent =>
        obtain ⟨width, hi⟩ := isIndent_of_addIndent hadd
        have htext : text = "--indent=" ++ value := by
          rw [Argument.eq_of_ofText_indent ha]
          exact String.toList_injective (by simp)
        subst htext
        exact .inr ⟨_, _, rest, rfl, .indentWithin hi⟩
    | none =>
      cases flag with
      | help | version =>
        rw [parseArguments, ha] at h
        cases h
      | check =>
        obtain rfl := Argument.eq_of_ofText_check ha
        exact .inr ⟨_, _, rest, rfl, .check⟩
      | output =>
        obtain ⟨value, behind, rfl, hp, next, hadd⟩ := exists_value_of_parse rfl ha h
        have hvalue : value ≠ "" := by simp_all [Given.addValue, Given.addOutput]
        have hflag := Argument.mem_of_ofText_output ha
        exact .inr ⟨_, [text, value], behind, rfl, .output hflag hp hvalue⟩
      | indent =>
        obtain ⟨value, behind, rfl, hp, next, hadd⟩ := exists_value_of_parse rfl ha h
        obtain rfl := Argument.eq_of_ofText_indent ha
        obtain ⟨width, hi⟩ := isIndent_of_addIndent hadd
        exact .inr ⟨_, _, behind, rfl, .indent hp hi⟩

theorem plainArguments_eq (given : Given) (paths : List String) : plainArguments given paths =
    ((paths.map Setting.input).foldlM Setting.add given).bind Given.command := by
  induction paths generalizing given with
  | nil => rfl
  | cons path paths ih =>
    rw [plainArguments, List.map_cons, List.foldlM_cons]
    cases h : Setting.add given (.input path) with
    | none =>
      rw [Setting.add] at h
      rw [h]
      rfl
    | some next =>
      rw [Setting.add] at h
      rw [h]
      exact ih next

theorem ne_empty_of_foldlM {paths : List String}
    (h : (paths.map Setting.input).foldlM Setting.add given = some next) :
    ∀ path ∈ paths, path ≠ "" := by
  induction paths generalizing given with
  | nil => nofun
  | cons path paths ih =>
    rw [List.map_cons, List.foldlM_cons] at h
    obtain ⟨between, hadd, h⟩ := Option.bind_eq_some_iff.mp h
    refine List.forall_mem_cons.mpr ⟨?_, ih h⟩
    simp_all [Setting.add, Given.addInput]

theorem Settings.parse {settings : List Setting} (h : Settings arguments settings) (given : Given) :
    parseArguments given arguments = (settings.foldlM Setting.add given).bind Given.command := by
  induction h generalizing given with
  | nil => rfl
  | cons hs _ ih =>
    rw [parseArguments_of_spelt hs, List.foldlM_cons]
    cases Setting.add given _ with
    | none => rfl
    | some next => exact ih next
  | inputs _ => exact plainArguments_eq given _

theorem exists_settings_of_parse (h : parseArguments given arguments = some (.compile job)) :
    ∃ settings, Settings arguments settings := by
  induction hn : arguments.length using Nat.strongRecOn generalizing given arguments with
  | ind length ih =>
    cases arguments with
    | nil => exact ⟨[], .nil⟩
    | cons text rest =>
      rcases exists_spelt_of_parse h with rfl | ⟨setting, front, behind, he, hs⟩
      · have hplain : plainArguments given rest = some (.compile job) := h
        rw [plainArguments_eq] at hplain
        obtain ⟨final, hf, -⟩ := Option.bind_eq_some_iff.mp hplain
        exact ⟨_, .inputs (ne_empty_of_foldlM hf)⟩
      · rw [he, parseArguments_of_spelt hs] at h
        obtain ⟨next, -, hnext⟩ := Option.bind_eq_some_iff.mp h
        have hlength := congrArg List.length he
        have hpos := List.length_pos_iff.mpr hs.ne_nil
        rw [List.length_append] at hlength
        obtain ⟨settings, hsettings⟩ := ih behind.length (by omega) hnext rfl
        exact ⟨setting :: settings, he ▸ .cons hs hsettings⟩

theorem Settings.proper {settings : List Setting} (h : Settings arguments settings) :
    ∀ setting ∈ settings, setting.Proper := by
  induction h with
  | nil => nofun
  | cons hs _ ih => exact List.forall_mem_cons.mpr ⟨hs.proper, ih⟩
  | inputs hp => simpa [Setting.Proper] using hp

end Parse

/-- The arguments give the settings of the job, in any order and each at most once. -/
def Usage (arguments : List String) (job : Job) : Prop :=
  ∃ settings indent, Settings arguments settings ∧
    settings.Perm (Given.settings ⟨some job.input, job.output, job.checkOnly, indent⟩) ∧
    job.indent = indent.getD 2

theorem Given.command_eq_some_iff {given : Given} {job : Job} :
    given.command = some (.compile job) ↔ ∃ indent,
      given = ⟨some job.input, job.output, job.checkOnly, indent⟩ ∧ job.indent = indent.getD 2 := by
  obtain ⟨input, output, check, indent⟩ := given
  obtain ⟨path, other, checkOnly, width⟩ := job
  simp only [command, Option.map_eq_some_iff, Command.compile.injEq, Job.mk.injEq, Given.mk.injEq]
  constructor
  · rintro ⟨found, rfl, rfl, rfl, rfl, rfl⟩
    exact ⟨indent, ⟨rfl, rfl, rfl, rfl⟩, rfl⟩
  · rintro ⟨found, ⟨rfl, rfl, rfl, rfl⟩, rfl⟩
    exact ⟨path, rfl, rfl, rfl, rfl, rfl⟩

theorem parseArguments_eq_compile_iff {arguments : List String} {job : Job} :
    parseArguments {} arguments = some (.compile job) ↔ Usage arguments job := by
  have hempty : Given.settings {} = [] := rfl
  constructor
  · intro h
    obtain ⟨settings, hs⟩ := exists_settings_of_parse h
    rw [hs.parse] at h
    obtain ⟨final, hf, hc⟩ := Option.bind_eq_some_iff.mp h
    obtain ⟨indent, rfl, hi⟩ := Given.command_eq_some_iff.mp hc
    rw [Given.foldlM_add_iff hs.proper, hempty, List.nil_append] at hf
    exact ⟨settings, indent, hs, hf.symm, hi⟩
  · rintro ⟨settings, indent, hs, hp, hi⟩
    have hf := (@Given.foldlM_add_iff {} _ settings hs.proper).mpr
      (by simpa [hempty] using hp.symm)
    rw [hs.parse, hf]
    exact Given.command_eq_some_iff.mpr ⟨indent, rfl, hi⟩

end TypedStyle.CommandLine
