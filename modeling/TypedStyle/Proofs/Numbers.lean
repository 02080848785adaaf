import TypedStyle.Proofs.Kinds
import TypedStyle.Proofs.Places
import Mathlib.Data.List.Forall2
import Mathlib.Data.List.TakeWhile
import Mathlib.Algebra.Group.Nat.Defs

set_option autoImplicit false

namespace TypedStyle

def Expr.numbers : Expr → List (Measure × Int64)
  | .literal (.number measure value) _ => [(measure, value)]
  | .literal _ _ => []
  | .reference _ _ => []
  | .operation _ left right _ => left.numbers ++ right.numbers

mutual

def Item.numbers : Item → List (Measure × Int64)
  | .declaration d => d.value.numbers
  | .assignment a => a.value.numbers
  | .branch condition body alternative _ =>
    condition.numbers ++ itemNumbers body ++ elseNumbers alternative

def itemNumbers : List Item → List (Measure × Int64)
  | [] => []
  | item :: items => item.numbers ++ itemNumbers items

def elseNumbers : Option (List Item) → List (Measure × Int64)
  | none => []
  | some body => itemNumbers body

end

def Member.numbers : Member → List (Measure × Int64)
  | .rule r => itemNumbers r.body
  | .assignment a => a.value.numbers

def Sheet.numbers (sheet : Sheet) : List (Measure × Int64) :=
  sheet.members.flatMap Member.numbers

def Token.isNumber (token : Token) : Bool :=
  token.kind.measure?.isSome

/-- The tokens of the kinds of numbers, one by one, are read as these numbers. -/
def Counts (tokens : List Token) (numbers : List (Measure × Int64)) : Prop :=
  List.Forall₂ (fun token number => token.number? = some number)
    (tokens.filter Token.isNumber) numbers

namespace Counts

variable {ts us : List Token} {ns ms : List (Measure × Int64)} {token : Token}

theorem nil : Counts [] [] :=
  List.Forall₂.nil

theorem append (h : Counts ts ns) (hu : Counts us ms) : Counts (ts ++ us) (ns ++ ms) := by
  rw [Counts, List.filter_append]
  exact List.rel_append h hu

theorem cons (hk : token.kind.measure? = none) (h : Counts ts ns) : Counts (token :: ts) ns := by
  rw [Counts, List.filter_cons_of_neg (by simp [Token.isNumber, hk])]
  exact h

theorem readable (h : Counts ts ns) : ∀ token ∈ ts, token.Readable := by
  rw [Counts] at h
  have hsome : List.Forall₂ (fun token number => token.number?.isSome = true ∧
      token.number? = some number) (ts.filter Token.isNumber) ns :=
    h.imp fun token number hn => ⟨by rw [hn]; rfl, hn⟩
  obtain ⟨hall, -⟩ := (List.forall₂_and_left _ _).mp hsome
  exact fun token hm hn => hall token (List.mem_filter.mpr ⟨hm, hn⟩)

end Counts

namespace Phrase

variable {ts : List Token} {token : Token} {e : Expr}

theorem Operand.counts (h : Operand token e) : Counts [token] e.numbers := by
  cases h with
  | @number measure value hk hs =>
    have hmeasure := Token.Kind.measure?_eq_some_iff.mpr hk
    rw [Counts, List.filter_cons_of_pos (by simp [Token.isNumber, hmeasure])]
    refine .cons ?_ .nil
    rw [Token.number?, hmeasure, Option.bind_eq_bind, Option.bind_some,
      Reader.number?_eq_some_iff.mpr hs]
    rfl
  | color hk | yes hk | no hk | reference hk => exact .cons (by rw [hk]; rfl) .nil

theorem Expression.counts {rank : Nat} (h : Expression rank ts e) : Counts ts e.numbers := by
  induction h with
  | operand h => exact h.counts
  | @operation _ _ _ _ op _ _ _ _ hk _ hl hr =>
    exact hl.append (.cons (by rw [hk]; cases op <;> rfl) hr)

theorem Framed.counts {first second third : Token.Kind} (h : Framed first second third ts token e)
    (hk : ∀ kind ∈ [first, second, third], kind.measure? = none) : Counts ts e.numbers := by
  cases h with
  | intro hf hs he ht =>
    have hlast : Counts [_] [] := .cons (ht ▸ hk third (by simp)) .nil
    have hinner := he.counts.append hlast
    rw [List.append_nil] at hinner
    exact .cons (hf ▸ hk first (by simp)) (.cons (hs ▸ hk second (by simp)) hinner)

mutual

theorem Item.counts {ts : List Token} {item : TypedStyle.Item} :
    Item ts item → Counts ts item.numbers
  | .declaration h => h.counts (by decide)
  | .assignment h => h.counts (by decide)
  | .branch h hb => by
    rw [Item.numbers, elseNumbers, List.append_nil]
    exact (h.counts (by decide)).append hb.counts
  | .alternative h hb hk ho => by
    rw [Item.numbers, elseNumbers, List.append_assoc]
    exact (h.counts (by decide)).append (hb.counts.append (.cons (by rw [hk]; rfl) ho.counts))

theorem Block.counts {ts : List Token} {items : List TypedStyle.Item} :
    Block ts items → Counts ts (itemNumbers items)
  | .braces ho hi hc => by
    have hlast : Counts [_] [] := .cons (by rw [hc]; rfl) .nil
    have hinner := (Items.counts hi).append hlast
    rw [List.append_nil] at hinner
    exact .cons (by rw [ho]; rfl) hinner

theorem Items.counts {ts : List Token} {items : List TypedStyle.Item} :
    Many Item ts items → Counts ts (itemNumbers items)
  | .nil => .nil
  | .cons hi hr => by
    rw [itemNumbers]
    exact hi.counts.append (Items.counts hr)

end

theorem Selector.counts {selector : TypedStyle.Selector} (h : Selector token selector) :
    token.kind.measure? = none := by
  cases h with
  | tag hk | className hk | idName hk | color hk => rw [hk]; rfl

theorem Further.counts {selectors : List TypedStyle.Selector} (h : Many Further ts selectors) :
    Counts ts [] := by
  induction h with
  | nil => exact .nil
  | cons hf _ ih =>
    cases hf with
    | plain h => exact .cons h.counts ih
    | comma hc h => exact .cons (by rw [hc]; rfl) (.cons h.counts ih)

theorem Member.counts {member : TypedStyle.Member} (h : Member ts member) :
    Counts ts member.numbers := by
  cases h with
  | assignment h => exact h.counts (by decide)
  | rule hs hf hb => exact .cons hs.counts ((Further.counts hf).append hb.counts)

theorem Members.counts {members : List TypedStyle.Member} (h : Many Member ts members) :
    Counts ts (members.flatMap Member.numbers) := by
  induction h with
  | nil => exact .nil
  | cons hm _ ih => exact hm.counts.append ih

theorem Sheet.counts {sheet : TypedStyle.Sheet} (h : Sheet ts sheet) :
    Counts ts sheet.numbers :=
  Members.counts h

end Phrase

/-- The token with a number of its kind that can be read, if its own cannot. -/
def Token.mend (token : Token) : Token :=
  if token.Readable then token
  else { token with value := "0" ++ (token.kind.measure?.getD .scalar).ending }

namespace Token

theorem kind_mend (token : Token) : token.mend.kind = token.kind := by
  rw [mend]
  split <;> rfl

theorem mend_of_readable {token : Token} (h : token.Readable) : token.mend = token :=
  if_pos h

theorem readable_mend (token : Token) : token.mend.Readable := by
  by_cases h : token.Readable
  · rwa [mend_of_readable h]
  · intro hsome
    rw [kind_mend] at hsome
    obtain ⟨measure, hm⟩ := Option.isSome_iff_exists.mp hsome
    have hzero : (Reader.number? measure ("0" ++ measure.ending)).isSome := by
      cases measure <;> decide
    obtain ⟨value, hvalue⟩ := Option.isSome_iff_exists.mp hzero
    simp [mend, h, number?, hm, hvalue]

theorem readable_of_eof {token : Token} (h : token.kind = .eof) : token.Readable := by
  intro hsome
  rw [h] at hsome
  cases hsome

end Token

theorem Reader.Kindred.ofTokens {tokens others : List Token}
    (hk : tokens.map Token.kind = others.map Token.kind)
    (hr : ∀ token ∈ others, token.Readable) (file : String) :
    Kindred (ofTokens tokens file) (ofTokens others file) := by
  have hlast := congrArg List.getLast? hk
  have hlength := congrArg List.length hk
  rw [List.getLast?_map, List.getLast?_map] at hlast
  rw [List.length_map, List.length_map] at hlength
  rw [Reader.ofTokens, Reader.ofTokens]
  cases ht : tokens.getLast? with
  | none =>
    rw [ht, Option.map_none, eq_comm, Option.map_eq_none_iff] at hlast
    rw [hlast]
    exact ⟨rfl, rfl, rfl, fun token hm => by cases hm⟩
  | some last =>
    rw [ht, Option.map_some, eq_comm, Option.map_eq_some_iff] at hlast
    obtain ⟨final, ho, hkind⟩ := hlast
    rw [ho]
    by_cases heof : last.kind = .eof
    · simp only [heof, hkind, dite_true]
      refine ⟨rfl, hlength, ?_, fun token hm => hr token (List.dropLast_subset _ hm)⟩
      rw [List.map_dropLast, List.map_dropLast, hk]
    · simp only [heof, hkind, dite_false]
      exact ⟨rfl, hlength, hk, hr⟩

/-- The tokens begin a sheet that goes on with a token of this kind. -/
def Phrase.Awaits (front : List Token) (kind : Token.Kind) : Prop :=
  ∃ other more sheet, other.kind = kind ∧ Phrase.Sheet (front ++ other :: more) sheet

section Blame

variable {tokens front rest : List Token} {token : Token} {file : String} {failure : Failure}

theorem Failure.eq_of_names (hn : failure.Names token) (hf : failure.IsNumeral) :
    failure = ⟨.numberParseError token.value, some token.span.start⟩ := by
  obtain ⟨cause, position⟩ := failure
  obtain ⟨text, rfl⟩ := hf
  obtain ⟨htext, rfl⟩ := hn
  cases htext
  rfl

theorem exists_eq_append_of_closeTokens (h : closeTokens tokens file = front ++ token :: rest)
    (hk : token.kind ≠ .eof) : ∃ more, tokens = front ++ token :: more := by
  obtain ⟨last, hl, heof⟩ := exists_closeTokens_eq tokens file
  rcases List.append_eq_append_iff.mp (hl.symm.trans h) with ⟨more, -, hm⟩ | ⟨more, rfl, hm⟩
  · exact absurd (heof token (hm ▸ by simp)) hk
  · rcases List.cons_eq_append_iff.mp hm with ⟨rfl, hlast⟩ | ⟨others, rfl, -⟩
    · exact absurd (heof token (hlast ▸ by simp)) hk
    · exact ⟨others, rfl⟩

theorem Reader.sheet_final (tokens : List Token) (file : String) :
    ∃ front stop rest more sheet, closeTokens tokens file = front ++ stop :: rest ∧
      Phrase.Sheet (front ++ more) sheet ∧
      final (Reader.sheet (ofTokens tokens file)) = (ofTokens tokens file).passed front.length := by
  have hb := before_ofTokens tokens file
  cases sheet_outcome (closed_closeTokens tokens file) with
  | @read front rest stop sheet ht hr hp =>
    rw [ht] at hb
    have hrun : Reader.sheet (ofTokens tokens file) = .ok sheet _ := hr hb
    refine ⟨front, stop, rest, [], sheet, ht, by rw [List.append_nil]; exact hp.1, ?_⟩
    rw [hrun]
    rfl
  | @blame front rest more stop _ sheet failure ht hblame _ hp =>
    rw [ht] at hb
    have hrun : Reader.sheet (ofTokens tokens file) = .error failure _ := hblame hb
    refine ⟨front, stop, rest, more, sheet, ht, hp.1, ?_⟩
    rw [hrun]
    rfl

theorem Reader.sheet_error {reader : Reader}
    (h : Reader.sheet (ofTokens tokens file) = .error failure reader) :
    ∃ front rest more sheet, closeTokens tokens file = front ++ reader.current :: rest ∧
      Phrase.Sheet (front ++ more) sheet ∧ reader = (ofTokens tokens file).passed front.length ∧
      failure.Names reader.current ∧
      Blames (fun _ => Reader.sheet) front reader.current failure := by
  have hb := before_ofTokens tokens file
  cases sheet_outcome (closed_closeTokens tokens file) with
  | read ht hr _ =>
    rw [ht] at hb
    have hrun : Reader.sheet (ofTokens tokens file) = .ok _ _ := hr hb
    rw [h] at hrun
    cases hrun
  | @blame front rest more stop _ sheet found ht hblame hf hp =>
    rw [ht] at hb
    have hrun : Reader.sheet (ofTokens tokens file) = .error found _ := hblame hb
    rw [h] at hrun
    cases hrun
    have hcurrent : ((ofTokens tokens file).passed front.length).current = stop :=
      hb.passed.current
    rw [hcurrent]
    exact ⟨front, rest, more, sheet, ht, hp.1, rfl, hf, hblame⟩

theorem exists_run_of_ofTokens_error (h : Sheet.ofTokens tokens file = .error failure) :
    ∃ reader, Reader.sheet (Reader.ofTokens tokens file) = .error failure reader := by
  rw [Sheet.ofTokens] at h
  cases hr : Reader.sheet (Reader.ofTokens tokens file) with
  | ok found reader =>
    rw [hr] at h
    cases h
  | error fault reader =>
    rw [hr, Except.error.injEq] at h
    exact ⟨reader, h ▸ rfl⟩

theorem Reader.not_readable_of_tracks {others : List Token} {reader : Reader}
    (hk : tokens.map Token.kind = others.map Token.kind) (hr : ∀ token ∈ others, token.Readable)
    (he : Reader.sheet (ofTokens tokens file) = .error failure reader)
    (hn : failure.IsNumeral ∨ ∃ sheet, Sheet.ofTokens others file = .ok sheet) :
    failure.IsNumeral ∧ ¬reader.current.Readable ∧
      (final (Reader.sheet (ofTokens others file))).ahead.length < reader.ahead.length := by
  obtain ⟨-, hm⟩ := Tracks.sheet _ _ (Kindred.ofTokens hk hr file)
  rw [he] at hm
  generalize hrun : Reader.sheet (ofTokens others file) = result at hm
  cases hm with
  | number hf hc hl => exact ⟨hf, hc, hl⟩
  | fail hf _ =>
    rcases hn with hn | ⟨sheet, hn⟩
    · exact absurd hn hf
    · rw [Sheet.ofTokens, hrun] at hn
      cases hn

theorem ofTokens_of_awaits (hu : ¬token.Readable) (ha : Phrase.Awaits front token.kind)
    (rest : List Token) (file : String) : Sheet.ofTokens (front ++ token :: rest) file =
      .error ⟨.numberParseError token.value, some token.span.start⟩ := by
  obtain ⟨other, more, sheet, hkind, hp⟩ := ha
  -- the token takes the place of the one that makes a sheet
  have hreadable := hp.counts.readable
  have hkinds : (front ++ token :: more).map Token.kind =
      (front ++ other :: more).map Token.kind := by
    simp [hkind]
  cases he : Reader.sheet (Reader.ofTokens (front ++ token :: more) file) with
  | ok found reader =>
    have hinner : ∀ mark ∈ front ++ token :: more, (mark.kind != .eof) = true := by
      intro mark hm
      obtain ⟨twin, htwin, hk⟩ := List.mem_map.mp (hkinds ▸ List.mem_map_of_mem hm)
      simpa [← hk] using hp.inner twin htwin
    have hok : Sheet.ofTokens (front ++ token :: more) file = .ok found := by
      rw [Sheet.ofTokens, he]
    rw [ofTokens_eq_ok_iff, List.takeWhile_eq_self_iff.mpr hinner] at hok
    exact absurd (hok.counts.readable token (by simp)) hu
  | error failure reader =>
    obtain ⟨hnumeral, hcurrent, -⟩ := Reader.not_readable_of_tracks hkinds hreadable he
      (.inr ⟨sheet, ofTokens_of_phrase hp file⟩)
    obtain ⟨inner, others, -, -, ht, -, -, hnames, hblames⟩ := Reader.sheet_error he
    -- the token is the only one that cannot be read
    obtain ⟨further, hsplit⟩ := exists_eq_append_of_closeTokens ht fun hk =>
      hcurrent (Token.readable_of_eof hk)
    have hfront : reader.current ∉ front := fun hm => hcurrent (hreadable _ (by simp [hm]))
    have hmore : reader.current ∉ more := fun hm => hcurrent (hreadable _ (by simp [hm]))
    obtain ⟨rfl, rfl, -⟩ := (List.append_cons_inj_of_notMem hfront hmore).mp hsplit
    obtain ⟨last, hl, -⟩ := exists_closeTokens_eq (front ++ reader.current :: rest) file
    rw [List.append_assoc, List.cons_append] at hl
    rw [Sheet.ofTokens_of_blames hblames hl, Failure.eq_of_names hnames hnumeral]

theorem exists_awaits_of_ofTokens (hf : failure.IsNumeral)
    (h : Sheet.ofTokens tokens file = .error failure) :
    ∃ front token rest, tokens = front ++ token :: rest ∧ ¬token.Readable ∧
      Phrase.Awaits front token.kind ∧
      failure = ⟨.numberParseError token.value, some token.span.start⟩ := by
  obtain ⟨reader, he⟩ := exists_run_of_ofTokens_error h
  have hkinds : tokens.map Token.kind = (tokens.map Token.mend).map Token.kind := by
    simp [Token.kind_mend]
  have hreadable : ∀ token ∈ tokens.map Token.mend, token.Readable := by
    intro token hm
    obtain ⟨found, -, rfl⟩ := List.mem_map.mp hm
    exact found.readable_mend
  obtain ⟨-, hcurrent, hlength⟩ := Reader.not_readable_of_tracks hkinds hreadable he (.inl hf)
  obtain ⟨front, rest, more, sheet, ht, hp, hreader, hnames, -⟩ := Reader.sheet_error he
  obtain ⟨rest, rfl⟩ := exists_eq_append_of_closeTokens ht fun hk =>
    hcurrent (Token.readable_of_eof hk)
  generalize reader.current = token at *
  refine ⟨front, token, rest, rfl, hcurrent, ?_, Failure.eq_of_names hnames hf⟩
  -- mended tokens are read on past the mended number
  obtain ⟨further, stop, others, more', sheet', hm, hp', hfinal⟩ :=
    Reader.sheet_final ((front ++ token :: rest).map Token.mend) file
  have hlonger : front.length < further.length := by
    have hahead := (Reader.Kindred.ofTokens hkinds hreadable file).length_ahead
    rw [hfinal, hreader, Reader.passed, Reader.passed, List.length_drop, List.length_drop,
      hahead] at hlength
    omega
  have hmend : front.map Token.mend = front := by
    conv_rhs => rw [← List.map_id front]
    exact List.map_congr_left fun mark hm =>
      Token.mend_of_readable (hp.counts.readable mark (List.mem_append_left more hm))
  obtain ⟨last, hl, -⟩ := exists_closeTokens_eq ((front ++ token :: rest).map Token.mend) file
  rw [hm, List.map_append, hmend, List.map_cons] at hl
  have hprefix : front ++ [token.mend] <+: further ++ stop :: others :=
    ⟨rest.map Token.mend ++ last, by simp [hl]⟩
  obtain ⟨others, rfl⟩ := List.prefix_of_prefix_length_le hprefix
    (List.prefix_append further (stop :: others)) (by simpa using Nat.succ_le_of_lt hlonger)
  exact ⟨token.mend, others ++ more', sheet', token.kind_mend, by simpa using hp'⟩

end Blame

namespace Token

/-- The token writes this natural number in decimal digits, of which there may be more than are
needed, and behind them the ending of the measure. -/
def Writes (token : Token) (measure : Measure) (n : Nat) : Prop :=
  token.kind = measure.kind ∧
    ∃ digits, Text.Digits digits n ∧ token.value.toList = digits ++ measure.ending.toList

def Exactly (token : Token) (number : Measure × Int64) : Prop :=
  ∃ n : Nat, token.Writes number.1 n ∧ n ≤ 2 ^ 63 - 1 ∧ number.2.toInt = n

section Writes

variable {token : Token} {measure : Measure} {n : Nat}

theorem Writes.measure? (h : token.Writes measure n) : token.kind.measure? = some measure :=
  Kind.measure?_eq_some_iff.mpr h.1

theorem Writes.number? (h : token.Writes measure n) : Reader.number? measure token.value =
    if n ≤ 2 ^ 63 - 1 then some (.ofNat n) else none := by
  obtain ⟨-, digits, hd, hv⟩ := h
  rw [Reader.number?, hv, ← (Text.Stem.cut digits).eq_dropEnding,
    Text.signed?_of_numeral (.bare hd), Option.bind_eq_bind, Option.bind_some, int64?,
    minValue_toInt, maxValue_toInt]
  by_cases hn : n ≤ 2 ^ 63 - 1
  · rw [if_pos (by omega), if_pos hn]
    rfl
  · rw [if_neg (by omega), if_neg hn]

theorem Writes.readable_iff (h : token.Writes measure n) : token.Readable ↔ n ≤ 2 ^ 63 - 1 := by
  rw [Reader.readable_iff h.measure?, h.number?]
  split <;> simp_all

theorem Writes.exactly (h : token.Writes measure n) {number : Measure × Int64}
    (hn : token.number? = some number) : token.Exactly number := by
  rw [Token.number?, h.measure?, Option.bind_eq_bind, Option.bind_some, h.number?] at hn
  split at hn
  · next hle =>
    cases hn
    exact ⟨n, h, hle, Int64.toInt_ofNat_of_lt (by omega)⟩
  · cases hn

theorem Exactly.nonneg {number : Measure × Int64} (h : token.Exactly number) :
    0 ≤ number.2.toInt := by
  obtain ⟨n, -, -, hvalue⟩ := h
  omega

theorem writes_of_fits (hk : token.isNumber) (hf : token.kind.Fits token.value) :
    ∃ measure n, token.Writes measure n := by
  obtain ⟨measure, hm⟩ := Option.isSome_iff_exists.mp hk
  rw [Kind.measure?_eq_some_iff] at hm
  rw [hm] at hf
  cases measure with
  | pixel | percentage =>
    obtain ⟨digits, ⟨hne, hall⟩, hv⟩ := hf
    exact ⟨_, _, hm, digits, .intro hne hall, hv⟩
  | scalar => exact ⟨_, _, hm, token.value.toList, .intro hf.1 hf.2, by simp [Measure.ending]⟩

end Writes

theorem Cuts.fits {text left : List Char} {pieces : List Piece} {file : String}
    (h : Cuts text pieces left) {offset : Nat} {token : Token}
    (ht : token ∈ placed file offset pieces) : token.kind.Fits token.value := by
  induction h generalizing offset with
  | done left => cases ht
  | @piece pattern lexeme rest left pieces hf _ ih =>
    rw [placed, List.mem_append] at ht
    rcases ht with ht | ht
    · obtain ⟨kind, hk, rfl⟩ := Option.map_eq_some_iff.mp (Option.mem_toList.mp ht)
      exact fits_of_first? hf hk
    · exact ih ht

end Token

section Source

variable {source file : String} {tokens : List Token}

theorem exists_writes_of_tokenize (h : tokenize source file = .ok tokens) {token : Token}
    (ht : token ∈ tokens) (hk : token.isNumber) : ∃ measure n, token.Writes measure n := by
  obtain ⟨pieces, hc, rfl⟩ := tokenize_eq_ok_iff.mp h
  rcases List.mem_append.mp ht with ht | ht
  · exact Token.writes_of_fits hk (hc.fits ht)
  · rw [List.mem_singleton.mp ht] at hk
    cases hk

theorem exists_inner_of_tokenize (h : tokenize source file = .ok tokens) :
    ∃ inner last, tokens = inner ++ [last] ∧ last.kind = .eof ∧ Phrase.Inner inner := by
  obtain ⟨pieces, hc, rfl⟩ := tokenize_eq_ok_iff.mp h
  exact ⟨_, _, rfl, rfl, hc.inner file 0⟩

theorem counts_of_readSheet (h : tokenize source file = .ok tokens) {sheet : Sheet}
    (hr : readSheet source file = .ok sheet) : Counts tokens sheet.numbers := by
  obtain ⟨inner, last, rfl, hl, hi⟩ := exists_inner_of_tokenize h
  rw [readSheet_of_tokenize h, ofTokens_eq_ok_iff, takeWhile_inner hi hl] at hr
  have hlast : Counts [last] [] := .cons (by rw [hl]; rfl) .nil
  have hcounts := hr.counts.append hlast
  rwa [List.append_nil] at hcounts

theorem exact_of_readSheet (h : tokenize source file = .ok tokens) {sheet : Sheet}
    (hr : readSheet source file = .ok sheet) :
    List.Forall₂ Token.Exactly (tokens.filter Token.isNumber) sheet.numbers := by
  have hwrites : ∀ token ∈ tokens.filter Token.isNumber, ∃ measure n, token.Writes measure n := by
    intro token hm
    obtain ⟨ht, hk⟩ := List.mem_filter.mp hm
    exact exists_writes_of_tokenize h ht hk
  refine ((List.forall₂_and_left _ _).mpr ⟨hwrites, counts_of_readSheet h hr⟩).imp ?_
  intro token number ⟨⟨measure, n, hw⟩, hn⟩
  exact hw.exactly hn

/-- The numbers of a source are read exactly, or blamed if they are too large. An operand is the
number that the digits of its token write; so are all numbers of a sheet, in the order of their
tokens, and none is negative. A number is blamed where it is too large and the tokens in front of it
begin a sheet that goes on with a number of its kind, and nowhere else. -/
theorem readSheet_numbers (h : tokenize source file = .ok tokens) :
    (∀ token ∈ tokens, token.isNumber → ∃ measure n, token.Writes measure n ∧
      ∀ reader : Reader, reader.current = token → Reader.operand reader =
        if n ≤ 2 ^ 63 - 1 then .ok (.literal (.number measure (.ofNat n))) (reader.passed 1)
        else .error ⟨.numberParseError token.value, some token.span.start⟩ reader) ∧
    (∀ sheet, readSheet source file = .ok sheet →
      List.Forall₂ Token.Exactly (tokens.filter Token.isNumber) sheet.numbers ∧
      ∀ number ∈ sheet.numbers, 0 ≤ number.2.toInt) ∧
    ∀ text position, readSheet source file = .error ⟨.numberParseError text, position⟩ ↔
      ∃ front token rest measure n, tokens = front ++ token :: rest ∧ token.Writes measure n ∧
        2 ^ 63 - 1 < n ∧ Phrase.Awaits front token.kind ∧ text = token.value ∧
        position = some token.span.start := by
  refine ⟨fun token ht hk => ?_, fun sheet hr => ?_, fun text position => ⟨fun hr => ?_, ?_⟩⟩
  · obtain ⟨measure, n, hw⟩ := exists_writes_of_tokenize h ht hk
    refine ⟨measure, n, hw, fun reader hc => ?_⟩
    subst hc
    rw [Reader.operand_of_measure hw.measure?, hw.number?]
    by_cases hn : n ≤ 2 ^ 63 - 1
    · rw [if_pos hn, if_pos hn]
    · rw [if_neg hn, if_neg hn]
  · have hexact := exact_of_readSheet h hr
    refine ⟨hexact, fun number hm => ?_⟩
    have hnonneg := hexact.flip.imp fun number token (he : Token.Exactly token number) =>
      And.intro he.nonneg he
    exact ((List.forall₂_and_left _ _).mp hnonneg).1 number hm
  · rw [readSheet_of_tokenize h] at hr
    obtain ⟨front, token, rest, rfl, hu, ha, hf⟩ := exists_awaits_of_ofTokens ⟨text, rfl⟩ hr
    have hk : token.isNumber := (Classical.not_imp.mp hu).1
    obtain ⟨measure, n, hw⟩ := exists_writes_of_tokenize h (by simp) hk
    rw [hw.readable_iff, Nat.not_le] at hu
    cases hf
    exact ⟨front, token, rest, measure, n, rfl, hw, hu, ha, rfl, rfl⟩
  · rintro ⟨front, token, rest, measure, n, rfl, hw, hn, ha, rfl, rfl⟩
    have hu : ¬token.Readable := by rwa [hw.readable_iff, Nat.not_le]
    rw [readSheet_of_tokenize h, ofTokens_of_awaits hu ha]

end Source

/-- Leading zeros and the greatest number, and the one above it. -/
theorem readSheet_numbers_at_bound :
    (∃ tokens sheet, tokenize "W:=007px+9223372036854775807%;" "shell" = .ok tokens ∧
      readSheet "W:=007px+9223372036854775807%;" "shell" = .ok sheet ∧
      sheet.numbers = [(.pixel, 7), (.percentage, 9223372036854775807)] ∧
      List.Forall₂ Token.Exactly (tokens.filter Token.isNumber) sheet.numbers ∧
      ∀ number ∈ sheet.numbers, 0 ≤ number.2.toInt) ∧
    ∃ tokens, tokenize "W:=007px+9223372036854775808%;" "shell" = .ok tokens ∧
      ∃ front token rest measure n, tokens = front ++ token :: rest ∧ token.Writes measure n ∧
        2 ^ 63 - 1 < n ∧ Phrase.Awaits front token.kind ∧ "9223372036854775808%" = token.value ∧
        some ⟨9, "shell"⟩ = some token.span.start := by
  have ht : tokenize "W:=007px+9223372036854775807%;" "shell" = .ok
      [⟨.capitalName, "W", ⟨⟨0, "shell"⟩, ⟨1, "shell"⟩⟩⟩,
        ⟨.assign, ":=", ⟨⟨1, "shell"⟩, ⟨3, "shell"⟩⟩⟩,
        ⟨.pixelSize, "007px", ⟨⟨3, "shell"⟩, ⟨8, "shell"⟩⟩⟩,
        ⟨.plus, "+", ⟨⟨8, "shell"⟩, ⟨9, "shell"⟩⟩⟩,
        ⟨.percentage, "9223372036854775807%", ⟨⟨9, "shell"⟩, ⟨29, "shell"⟩⟩⟩,
        ⟨.semicolon, ";", ⟨⟨29, "shell"⟩, ⟨30, "shell"⟩⟩⟩, .eof ⟨30, "shell"⟩] := by
    decide +kernel
  have ho : tokenize "W:=007px+9223372036854775808%;" "shell" = .ok
      [⟨.capitalName, "W", ⟨⟨0, "shell"⟩, ⟨1, "shell"⟩⟩⟩,
        ⟨.assign, ":=", ⟨⟨1, "shell"⟩, ⟨3, "shell"⟩⟩⟩,
        ⟨.pixelSize, "007px", ⟨⟨3, "shell"⟩, ⟨8, "shell"⟩⟩⟩,
        ⟨.plus, "+", ⟨⟨8, "shell"⟩, ⟨9, "shell"⟩⟩⟩,
        ⟨.percentage, "9223372036854775808%", ⟨⟨9, "shell"⟩, ⟨29, "shell"⟩⟩⟩,
        ⟨.semicolon, ";", ⟨⟨29, "shell"⟩, ⟨30, "shell"⟩⟩⟩, .eof ⟨30, "shell"⟩] := by
    decide +kernel
  have hr : readSheet "W:=007px+9223372036854775807%;" "shell" = .ok
      ⟨[.assignment ⟨"W", .operation .add (.literal (.number .pixel 7))
        (.literal (.number .percentage 9223372036854775807))⟩]⟩ :=
    (readSheet_of_tokenize ht).trans rfl
  have herror : readSheet "W:=007px+9223372036854775808%;" "shell" =
      .error ⟨.numberParseError "9223372036854775808%", some ⟨9, "shell"⟩⟩ :=
    (readSheet_of_tokenize ho).trans rfl
  obtain ⟨hexact, hnonneg⟩ := (readSheet_numbers ht).2.1 _ hr
  exact ⟨⟨_, _, ht, hr, rfl, hexact, hnonneg⟩, _, ho,
    ((readSheet_numbers ho).2.2 _ _).mp herror⟩

end TypedStyle
