/-
Strict CSV.

`_strict_csv_lines` hands the lines of a text on to `csv.reader` and reads along, character by
character.  What may still follow is a language for each of its states (`Rest`), and a character
that is read takes one language to the other (`step_rest`).

The state goes from line to line, so that only the text counts and not where it is cut
(`strictCsvLines_spec`).
-/
import DataEngLab.Lib.Text
import DataEngLab.Lib.Checks

namespace Inspection

open Lib

def nul : Nat := 0
def quote : Nat := 34
def lineFeed : Nat := 10
def carriageReturn : Nat := 13

/-! ### The scan -/

inductive CsvState where
  | unquoted
  | quoted
  | afterQuote
deriving DecidableEq

structure CsvScan where
  state : CsvState
  fieldStart : Bool
deriving DecidableEq

def CsvScan.start : CsvScan := ⟨.unquoted, true⟩

section
variable (delimiter : Nat)

/-- What ends a field. -/
def isSeparator (c : Nat) : Bool := c == delimiter || c == carriageReturn || c == lineFeed

/-- The body of the inner loop; the error is that of `csv.Error`. -/
def step (s : CsvScan) (c : Nat) : Except Str CsvScan :=
  if c = nul then .error (lit "NUL is forbidden in CSV")
  else
    match s.state with
    | .quoted => if c = quote then .ok { s with state := .afterQuote } else .ok s
    | .afterQuote =>
        if c = quote then .ok { s with state := .quoted }
        else if isSeparator delimiter c then .ok .start
        else .error (lit "characters after closing quote")
    | .unquoted =>
        if c = quote then
          if s.fieldStart then .ok ⟨.quoted, false⟩ else .error (lit "quote inside unquoted field")
        else .ok { s with fieldStart := isSeparator delimiter c }

def scanLine (s : CsvScan) (line : Str) : Except Str CsvScan := line.foldlM (step delimiter) s

def finish (s : CsvScan) : Except Str Unit := require (s.state != .quoted) (lit "unterminated quoted field")

/-- The loop of `_strict_csv_lines`: the lines that are handed on, and how it ends. -/
def csvLoop : CsvScan → List Str → List Str × Except Str Unit
  | s, [] => ([], finish s)
  | s, line :: lines =>
      match scanLine delimiter s line with
      | .error e => ([], .error e)
      | .ok s =>
          let (handed, result) := csvLoop s lines
          (line :: handed, result)

/-- `_strict_csv_lines`, run to its end -/
def strictCsvLines (lines : List Str) : List Str × Except Str Unit := csvLoop delimiter .start lines

/-! ### The language -/

/-- A field without quotes. -/
def IsPlain (field : Str) : Prop := ∀ c ∈ field, c ≠ quote ∧ isSeparator delimiter c = false

/-- Every quote is doubled. -/
def doubled (body : Str) : Str := body.flatMap fun c => if c = quote then [quote, quote] else [c]

def IsField (field : Str) : Prop := IsPlain delimiter field ∨ ∃ body, field = quote :: doubled body ++ [quote]

/-- Fields, with one separator between each and the next. -/
inductive Fields : Str → Prop
  | last {field : Str} (h : IsField delimiter field) : Fields field
  | more {field rest : Str} {c : Nat} (h : IsField delimiter field) (hc : isSeparator delimiter c = true)
      (hrest : Fields rest) : Fields (field ++ c :: rest)

/-- The text that strict CSV allows. -/
def IsStrictCsv (text : Str) : Prop := nul ∉ text ∧ Fields delimiter text

/-! ### What may follow -/

/-- After a field. -/
def Ends (text : Str) : Prop :=
  text = [] ∨ ∃ c rest, text = c :: rest ∧ isSeparator delimiter c = true ∧ Fields delimiter rest

/-- Inside quotes. -/
def Closes (text : Str) : Prop := ∃ body rest, text = doubled body ++ quote :: rest ∧ Ends delimiter rest

/-- In a plain field. -/
def Goes (text : Str) : Prop := ∃ field rest, text = field ++ rest ∧ IsPlain delimiter field ∧ Ends delimiter rest

/-- What may follow in a state. -/
def Rest (s : CsvScan) (text : Str) : Prop :=
  match s.state with
  | .quoted => Closes delimiter text
  | .afterQuote => Ends delimiter text ∨ ∃ rest, text = quote :: rest ∧ Closes delimiter rest
  | .unquoted => if s.fieldStart then Fields delimiter text else Goes delimiter text

end

section
variable {delimiter : Nat} {c : Nat} {text : Str}

theorem fields_iff : Fields delimiter text ↔ ∃ field rest, text = field ++ rest ∧ IsField delimiter field ∧
    Ends delimiter rest := by
  constructor
  · rintro (h | ⟨h, hc, hrest⟩)
    · exact ⟨_, [], (List.append_nil _).symm, h, .inl rfl⟩
    · exact ⟨_, _, rfl, h, .inr ⟨_, _, rfl, hc, hrest⟩⟩
  · rintro ⟨field, rest, rfl, hfield, rfl | ⟨c, rest, rfl, hc, hrest⟩⟩
    · rw [List.append_nil]
      exact .last hfield
    · exact .more hfield hc hrest

theorem doubled_cons (body : Str) :
    doubled (c :: body) = (if c = quote then [quote, quote] else [c]) ++ doubled body := List.flatMap_cons

theorem isPlain_cons : IsPlain delimiter (c :: text) ↔
    (c ≠ quote ∧ isSeparator delimiter c = false) ∧ IsPlain delimiter text := List.forall_mem_cons

@[simp] theorem isPlain_nil : IsPlain delimiter [] := List.forall_mem_nil _

/-! ### At the end -/

theorem ends_nil : Ends delimiter [] := .inl rfl

theorem fields_nil : Fields delimiter [] := .last (.inl isPlain_nil)

theorem not_closes_nil : ¬ Closes delimiter [] := by
  rintro ⟨body, rest, h, -⟩
  exact absurd h.symm (by simp)

theorem finish_iff {s : CsvScan} : finish s = .ok () ↔ Rest delimiter s [] := by
  obtain ⟨state, fieldStart⟩ := s
  rw [finish, require_eq_ok]
  cases state with
  | quoted => exact iff_of_false (by simp) not_closes_nil
  | afterQuote => exact iff_of_true (by simp) (.inl ends_nil)
  | unquoted =>
      refine iff_of_true (by simp) ?_
      cases fieldStart with
      | true => exact fields_nil
      | false => exact ⟨[], [], rfl, isPlain_nil, ends_nil⟩

/-! ### One character -/

theorem ends_cons : Ends delimiter (c :: text) ↔ isSeparator delimiter c = true ∧ Fields delimiter text := by
  constructor
  · rintro (h | ⟨c', rest, h, hc, hrest⟩)
    · cases h
    · obtain ⟨rfl, rfl⟩ := List.cons.inj h
      exact ⟨hc, hrest⟩
  · rintro ⟨hc, hrest⟩
    exact .inr ⟨c, text, rfl, hc, hrest⟩

/-- A quote inside quotes closes them or is the first of two. -/
theorem closes_quote : Closes delimiter (quote :: text) ↔
    Ends delimiter text ∨ ∃ rest, text = quote :: rest ∧ Closes delimiter rest := by
  constructor
  · rintro ⟨body, rest, h, hrest⟩
    cases body with
    | nil => exact .inl ((List.cons.inj h).2 ▸ hrest)
    | cons b body =>
        rw [doubled_cons] at h
        by_cases hb : b = quote
        · rw [if_pos hb] at h
          exact .inr ⟨_, (List.cons.inj h).2, body, rest, rfl, hrest⟩
        · rw [if_neg hb] at h
          exact absurd (List.cons.inj h).1.symm hb
  · rintro (h | ⟨rest, rfl, body, rest', rfl, hrest⟩)
    · exact ⟨[], text, rfl, h⟩
    · refine ⟨quote :: body, rest', ?_, hrest⟩
      rw [doubled_cons, if_pos rfl]
      rfl

/-- Any other character belongs to the field. -/
theorem closes_cons (hc : c ≠ quote) : Closes delimiter (c :: text) ↔ Closes delimiter text := by
  constructor
  · rintro ⟨body, rest, h, hrest⟩
    cases body with
    | nil => exact absurd (List.cons.inj h).1 hc
    | cons b body =>
        rw [doubled_cons] at h
        by_cases hb : b = quote
        · rw [if_pos hb] at h
          exact absurd (List.cons.inj h).1 hc
        · rw [if_neg hb] at h
          exact ⟨body, rest, (List.cons.inj h).2, hrest⟩
  · rintro ⟨body, rest, rfl, hrest⟩
    refine ⟨c :: body, rest, ?_, hrest⟩
    rw [doubled_cons, if_neg hc]
    rfl

theorem goes_cons : Goes delimiter (c :: text) ↔
    Ends delimiter (c :: text) ∨ (c ≠ quote ∧ isSeparator delimiter c = false) ∧ Goes delimiter text := by
  constructor
  · rintro ⟨field, rest, h, hfield, hrest⟩
    cases field with
    | nil => exact .inl (h ▸ hrest)
    | cons b field =>
        obtain ⟨rfl, rfl⟩ := List.cons.inj h
        obtain ⟨hb, hfield⟩ := isPlain_cons.mp hfield
        exact .inr ⟨hb, field, rest, rfl, hfield, hrest⟩
  · rintro (h | ⟨hc, field, rest, rfl, hfield, hrest⟩)
    · exact ⟨[], _, rfl, isPlain_nil, h⟩
    · exact ⟨c :: field, rest, rfl, isPlain_cons.mpr ⟨hc, hfield⟩, hrest⟩

/-- A field is plain or begins with a quote. -/
theorem fields_cons : Fields delimiter (c :: text) ↔
    Goes delimiter (c :: text) ∨ c = quote ∧ Closes delimiter text := by
  rw [fields_iff]
  constructor
  · rintro ⟨field, rest, h, hplain | ⟨body, rfl⟩, hrest⟩
    · exact .inl ⟨field, rest, h, hplain, hrest⟩
    · obtain ⟨rfl, rfl⟩ := List.cons.inj h
      exact .inr ⟨rfl, body, rest, List.append_assoc .., hrest⟩
  · rintro (⟨field, rest, h, hplain, hrest⟩ | ⟨rfl, body, rest, rfl, hrest⟩)
    · exact ⟨field, rest, h, .inl hplain, hrest⟩
    · exact ⟨quote :: doubled body ++ [quote], rest, by simp, .inr ⟨body, rfl⟩, hrest⟩

theorem isSeparator_quote (hdelimiter : delimiter ≠ quote) : isSeparator delimiter quote = false := by
  have hne : ¬ 34 = delimiter := hdelimiter.symm
  simp [isSeparator, hne, quote, carriageReturn, lineFeed]

theorem not_ends_quote (hdelimiter : delimiter ≠ quote) : ¬ Ends delimiter (quote :: text) := by
  rw [ends_cons, isSeparator_quote hdelimiter]
  exact fun h => Bool.false_ne_true h.1

theorem not_goes_quote (hdelimiter : delimiter ≠ quote) : ¬ Goes delimiter (quote :: text) := by
  rw [goes_cons]
  rintro (h | ⟨⟨hne, -⟩, -⟩)
  · exact not_ends_quote hdelimiter h
  · exact hne rfl

/-- A character outside quotes, other than a quote. -/
theorem goes_cons_of_ne (hc : c ≠ quote) : Goes delimiter (c :: text) ↔
    if isSeparator delimiter c then Fields delimiter text else Goes delimiter text := by
  rw [goes_cons, ends_cons]
  cases isSeparator delimiter c with
  | true => simp
  | false => simp [hc]

/-- **One character takes what may follow in a state to what may follow in the next.** -/
theorem step_rest (hdelimiter : delimiter ≠ quote) (hnul : c ≠ nul) (s : CsvScan) :
    Rest delimiter s (c :: text) ↔ ∃ s', step delimiter s c = .ok s' ∧ Rest delimiter s' text := by
  obtain ⟨state, fieldStart⟩ := s
  rw [step, if_neg hnul]
  cases state with
  | quoted =>
      by_cases hc : c = quote
      · subst hc
        simp only [↓reduceIte, Except.ok.injEq, exists_eq_left']
        exact closes_quote
      · simp only [if_neg hc, Except.ok.injEq, exists_eq_left']
        exact closes_cons hc
  | afterQuote =>
      by_cases hc : c = quote
      · subst hc
        simp only [↓reduceIte, Except.ok.injEq, exists_eq_left', Rest, not_ends_quote hdelimiter, false_or,
          List.cons.injEq, true_and]
      · have hnot : ¬ ∃ rest, c :: text = quote :: rest ∧ Closes delimiter rest :=
          fun ⟨_, h, _⟩ => hc (List.cons.inj h).1
        simp only [if_neg hc, Rest, ends_cons, hnot, or_false]
        cases isSeparator delimiter c with
        | true => simp [CsvScan.start]
        | false => simp
  | unquoted =>
      by_cases hc : c = quote
      · subst hc
        cases fieldStart with
        | true => simp [Rest, fields_cons, not_goes_quote hdelimiter]
        | false => simp [Rest, not_goes_quote hdelimiter]
      · simp only [if_neg hc, Except.ok.injEq, exists_eq_left']
        cases fieldStart with
        | true => simp [Rest, fields_cons, hc, goes_cons_of_ne hc]
        | false => simp [Rest, goes_cons_of_ne hc]

/-! ### The run -/

/-- A text is read to its end exactly when it has no NUL and may follow. -/
theorem scan_iff (hdelimiter : delimiter ≠ quote) : ∀ {text : Str} {s : CsvScan},
    (scanLine delimiter s text >>= finish) = .ok () ↔ nul ∉ text ∧ Rest delimiter s text
  | [], s => by
      rw [scanLine, List.foldlM_nil, pure_bind]
      exact ⟨fun h => ⟨List.not_mem_nil, finish_iff.mp h⟩, fun h => finish_iff.mpr h.2⟩
  | c :: text, s => by
      by_cases hc : c = nul
      · have herror : step delimiter s c = .error (lit "NUL is forbidden in CSV") := if_pos hc
        rw [scanLine, List.foldlM_cons, herror]
        exact iff_of_false (by rintro ⟨⟩) fun h => h.1 (hc ▸ List.mem_cons_self)
      · rw [step_rest hdelimiter hc, List.mem_cons, not_or, scanLine, List.foldlM_cons]
        constructor
        · intro h
          cases hs : step delimiter s c with
          | error e =>
              rw [hs] at h
              cases h
          | ok s' =>
              rw [hs] at h
              obtain ⟨hrest, hlanguage⟩ := (scan_iff hdelimiter).mp h
              exact ⟨⟨Ne.symm hc, hrest⟩, s', rfl, hlanguage⟩
        · rintro ⟨⟨-, hrest⟩, s', hs, hlanguage⟩
          rw [hs]
          exact (scan_iff hdelimiter).mpr ⟨hrest, hlanguage⟩

theorem scanLine_append {s : CsvScan} {line rest : Str} :
    scanLine delimiter s (line ++ rest) = scanLine delimiter s line >>= fun s => scanLine delimiter s rest :=
  List.foldlM_append ..

/-- How the loop ends is a matter of the text; lines are handed on as they are. -/
theorem csvLoop_spec : ∀ {lines : List Str} {s : CsvScan},
    (csvLoop delimiter s lines).2 = (scanLine delimiter s lines.flatten >>= finish) ∧
      (csvLoop delimiter s lines).1 <+: lines ∧
      ((csvLoop delimiter s lines).2 = .ok () → (csvLoop delimiter s lines).1 = lines)
  | [], s => ⟨rfl, List.prefix_rfl, fun _ => rfl⟩
  | line :: lines, s => by
      rw [csvLoop, List.flatten_cons, scanLine_append]
      cases scanLine delimiter s line with
      | error e => exact ⟨rfl, List.nil_prefix, fun h => by cases h⟩
      | ok s' =>
          obtain ⟨hresult, hprefix, hall⟩ : (csvLoop delimiter s' lines).2 = _ ∧ _ ∧ _ := csvLoop_spec
          exact ⟨hresult, List.cons_prefix_cons.mpr ⟨rfl, hprefix⟩, fun h => congrArg (line :: ·) (hall h)⟩

end

/-- **The strict CSV texts are those that are read to the end, however they are cut into lines, and then they are handed
on whole.** -/
theorem strictCsvLines_spec {delimiter : Nat} (hdelimiter : delimiter ≠ quote) (lines : List Str) :
    ((strictCsvLines delimiter lines).2 = .ok () ↔ IsStrictCsv delimiter lines.flatten) ∧
      (∀ others : List Str, others.flatten = lines.flatten →
        (strictCsvLines delimiter others).2 = (strictCsvLines delimiter lines).2) ∧
      ((strictCsvLines delimiter lines).2 = .ok () → (strictCsvLines delimiter lines).1.flatten = lines.flatten) := by
  refine ⟨?_, fun others h => ?_, fun h => ?_⟩
  · rw [strictCsvLines, csvLoop_spec.1]
    exact scan_iff hdelimiter
  · rw [strictCsvLines, csvLoop_spec.1, h]
    exact csvLoop_spec.1.symm
  · rw [strictCsvLines, csvLoop_spec.2.2 h]

/-- A line break and a quote inside quotes, cut between the two quotes that stand for it. -/
theorem isStrictCsv_two_cuts : IsStrictCsv 44 [lit "a,\"b\"", lit "\"\n\""].flatten :=
  (strictCsvLines_spec (by decide) [lit "a,\"b\"", lit "\"\n\""]).1.mp rfl

end Inspection
