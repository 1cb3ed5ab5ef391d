/-
Cuts do not matter to the XML reader.

After any reads the decoder has decoded what came so far, the window is the end of it in upper case,
and no declaration is in it (`Scanned`).  So a stream is accepted exactly when it is clean in the
encoding that was chosen on the way and within the budget (`accepts_probing`).

Which encoding that is depends on the cuts for one mark: `FF FE` tells UTF-16 and `FF FE 00 00` tells
UTF-32 (`detect_append`, `detect_append_wide`).
-/
import DataEngLab.Inspection.XmlReader

namespace Inspection

open Lib

/-- A character of an upper-case text is its own upper case. -/
def IsUpper (upper : Nat → Str) : Prop := ∀ c, ∀ x ∈ upper c, upper x = [x]

section
variable {upper : Nat → Str} {limit : Nat} {encoding : Encoding} {b data : Bytes} {s s' : Reader} {final : Bool}

theorem upperText_append (t u : Str) : upperText upper (t ++ u) = upperText upper t ++ upperText upper u :=
  List.flatMap_append ..

/-- Upper case is its own upper case, also where it is cut. -/
theorem upperText_lastChars (hupper : IsUpper upper) (n : Nat) (t : Str) :
    upperText upper (lastChars n (upperText upper t)) = lastChars n (upperText upper t) := by
  have hsame : ∀ {u : Str}, (∀ x ∈ u, upper x = [x]) → upperText upper u = u := by
    intro u hu
    induction u with
    | nil => rfl
    | cons x u ih =>
        rw [upperText, List.flatMap_cons, hu x (List.mem_cons_self ..)]
        exact congrArg (x :: ·) (ih fun y hy => hu y (List.mem_cons_of_mem _ hy))
  refine hsame fun x hx => ?_
  obtain ⟨c, -, hc⟩ := List.mem_flatMap.mp (List.mem_of_mem_drop hx)
  exact hupper c x hc

theorem unmarked_append {t u : Str} : Unmarked (t ++ u) ↔ Unmarked t ∧ Unmarked (lastChars 16 t ++ u) := by
  have hdoctype : doctype.length ≤ 16 + 1 := by decide
  have hentity : entity.length ≤ 16 + 1 := by decide
  rw [Unmarked, Unmarked, Unmarked, infix_append_window hdoctype, infix_append_window hentity]
  tauto

theorem unmarked_nil : Unmarked [] := ⟨by decide, by decide⟩

/-- A decoder that was fed with these bytes, none of which hold a declaration. -/
structure Scanned (upper : Nat → Str) (encoding : Encoding) (b : Bytes) (s : Reader) : Prop where
  long : encoding = .utf8sig → 3 ≤ b.length
  decoded : ∃ text pending, s.decoder = some ⟨encoding, pending, false⟩ ∧
    encoding.text b = some (text, pending) ∧
    s.decodedTail = lastChars 16 (upperText upper text) ∧ Unmarked (upperText upper text)

/-- The encoding is not known yet. -/
structure Probing (b : Bytes) (s : Reader) : Prop where
  probe : s.rawProbe = b
  decoder : s.decoder = none
  tail : s.decodedTail = []

theorem Encoding.text_append (hlong : encoding = .utf8sig → 3 ≤ b.length) : encoding.text (b ++ data) =
    (encoding.text b).bind fun (t, left) =>
      (encoding.codec.decode (left ++ data)).map fun (u, rest) => (t ++ u, rest) := by
  by_cases hsig : encoding = .utf8sig
  · rw [Encoding.text, Encoding.text, if_pos hsig, if_pos hsig, List.drop_append_of_le_length (hlong hsig),
      Codec.decode_append]
  · rw [Encoding.text, Encoding.text, if_neg hsig, if_neg hsig, Codec.decode_append]

/-- A clean text begins cleanly. -/
theorem Clean.before (h : Clean upper encoding (b ++ data) final) (hlong : encoding = .utf8sig → 3 ≤ b.length) :
    Clean upper encoding b false := by
  obtain ⟨text, pending, htext, hunmarked, -⟩ := h
  rw [Encoding.text_append hlong, Option.bind_eq_some_iff] at htext
  obtain ⟨⟨t, left⟩, ht, hmap⟩ := htext
  obtain ⟨⟨u, rest⟩, -, hu⟩ := Option.map_eq_some_iff.mp hmap
  obtain ⟨rfl, rfl⟩ := Prod.mk.inj hu
  rw [upperText_append, unmarked_append] at hunmarked
  exact ⟨t, left, ht, hunmarked.1, Bool.noConfusion⟩

theorem checkDecoded_iff {decoded : Str} : checkDecoded upper s decoded = .ok s' ↔
    Unmarked (upperText upper (s.decodedTail ++ decoded)) ∧
      s' = { s with decodedTail := lastChars 16 (upperText upper (s.decodedTail ++ decoded)) } := by
  simp only [checkDecoded, Unmarked]
  split_ifs with hdoctype hentity
  · simp [hdoctype]
  · simp [hentity]
  · simp [hdoctype, hentity, eq_comm]

theorem decodeInput_iff {k : Codec} {input : Bytes} {text : Str} {pending : Bytes} :
    decodeInput k input final = .ok (text, pending) ↔ k.decode input = some (text, pending) ∧
      (final = true → pending = []) := by
  unfold decodeInput
  cases hk : k.decode input with
  | none => simp
  | some x =>
      obtain ⟨t, p⟩ := x
      cases final with
      | false => simp
      | true =>
          by_cases hp : p = []
          · simp [hp]
          · simp [hp]
            rintro rfl rfl
            exact hp

theorem detect_utf8sig {probe : Bytes} (h : detectEncoding probe final = .ok (some encoding)) :
    encoding = .utf8sig → bomUtf8 <+: probe := by
  rintro rfl
  unfold detectEncoding at h
  split_ifs at h with hwide hle hbe hmark
  · cases h
  · cases h
  · exact List.isPrefixOf_iff_prefix.mp hmark
  · unfold detectUnmarked at h
    split at h
    · split_ifs at h
      all_goals cases h
    · cases final <;> cases h

/-- The first call of a decoder. -/
theorem decoder_first {input : Bytes} (hmark : encoding = .utf8sig → bomUtf8 <+: input) :
    encoding.decoder.decode input final =
      decodeInput encoding.codec (if encoding = .utf8sig then input.drop 3 else input) final >>= fun x =>
        pure (x.1, ⟨encoding, x.2, false⟩) := by
  rw [Decoder.decode, Encoding.decoder, List.nil_append]
  by_cases hsig : encoding = .utf8sig
  · have hprefix := List.isPrefixOf_iff_prefix.mpr (hmark hsig)
    have hlong : ¬ input.length < 3 := not_lt.mpr (hmark hsig).length_le
    simp only [hsig, hprefix, hlong, true_and, false_and, and_self, ↓reduceIte]
  · simp only [hsig, false_and, ↓reduceIte]

/-! ### One read -/

/-- The end of a scan: some bytes are decoded, and the text is looked at behind the window. -/
def scanInput (upper : Nat → Str) (s : Reader) (encoding : Encoding) (probe input : Bytes) (final : Bool) :
    Except ReadError Reader :=
  decodeInput encoding.codec input final >>= fun x =>
    checkDecoded upper { s with rawProbe := probe, decoder := some ⟨encoding, x.2, false⟩ } x.1

/-- **The scan goes well exactly when all that was read so far is clean.** -/
theorem scanInput_spec (hupper : IsUpper upper) {text : Str} {probe input whole : Bytes}
    (hlong : encoding = .utf8sig → 3 ≤ whole.length) (htail : s.decodedTail = lastChars 16 (upperText upper text))
    (hunmarked : Unmarked (upperText upper text))
    (hwhole : encoding.text whole = (encoding.codec.decode input).map fun (u, rest) => (text ++ u, rest)) :
    (∀ s', scanInput upper s encoding probe input final = .ok s' → Scanned upper encoding whole s' ∧
      Clean upper encoding whole final ∧ s'.expanded = s.expanded) ∧
    (Clean upper encoding whole final → ∃ s', scanInput upper s encoding probe input final = .ok s') := by
  have hwindow : ∀ u, upperText upper (s.decodedTail ++ u) =
      lastChars 16 (upperText upper text) ++ upperText upper u := by
    intro u
    rw [upperText_append, htail, upperText_lastChars hupper]
  constructor
  · intro s' h
    obtain ⟨⟨u, pending⟩, hdecoded, hchecked⟩ := bind_eq_ok.mp h
    obtain ⟨hinput, hleft⟩ := decodeInput_iff.mp hdecoded
    obtain ⟨hclean, rfl⟩ := checkDecoded_iff.mp hchecked
    have hall : encoding.text whole = some (text ++ u, pending) := by rw [hwhole, hinput]; rfl
    have hmarks : Unmarked (upperText upper (text ++ u)) := by
      rw [upperText_append, unmarked_append, ← hwindow]
      exact ⟨hunmarked, hclean⟩
    refine ⟨⟨hlong, text ++ u, pending, rfl, hall, ?_, hmarks⟩, ⟨text ++ u, pending, hall, hmarks, hleft⟩,
      rfl⟩
    show lastChars 16 (upperText upper (s.decodedTail ++ u)) = _
    rw [hwindow, upperText_append, lastChars_append]
  · rintro ⟨all, pending, hall, hmarks, hleft⟩
    rw [hwhole, Option.map_eq_some_iff] at hall
    obtain ⟨⟨u, rest⟩, hinput, heq⟩ := hall
    obtain ⟨rfl, rfl⟩ := Prod.mk.inj heq
    rw [upperText_append, unmarked_append, ← hwindow] at hmarks
    have hdecoded : decodeInput encoding.codec input final = .ok (u, rest) := decodeInput_iff.mpr ⟨hinput, hleft⟩
    exact ⟨_, bind_eq_ok.mpr ⟨(u, rest), hdecoded, checkDecoded_iff.mpr ⟨hmarks.2, rfl⟩⟩⟩

/-- A decoder that is there. -/
theorem scan_scanned (hupper : IsUpper upper) (hs : Scanned upper encoding b s) (data : Bytes)
    (final : Bool) :
    (∀ s', scanDeclarations upper s data final = .ok s' → Scanned upper encoding (b ++ data) s' ∧
      Clean upper encoding (b ++ data) final ∧ s'.expanded = s.expanded) ∧
    (Clean upper encoding (b ++ data) final → ∃ s', scanDeclarations upper s data final = .ok s') := by
  obtain ⟨hlong, text, pending, hdecoder, htext, htail, hunmarked⟩ := hs
  have hscan : scanDeclarations upper s data final = scanInput upper s encoding s.rawProbe (pending ++ data) final := by
    unfold scanDeclarations
    rw [hdecoder]
    simp only [Decoder.decode, Bool.false_eq_true, false_and, and_false, ↓reduceIte, scanInput, bind_assoc]
    rfl
  rw [hscan]
  refine scanInput_spec hupper (fun h => ?_) htail hunmarked ?_
  · have := hlong h
    rw [List.length_append]
    omega
  · rw [Encoding.text_append hlong, htext]
    rfl

/-- A decoder that is chosen now. -/
theorem scan_probing (hupper : IsUpper upper) (hs : Probing b s)
    (hdetect : detectEncoding (b ++ data) final = .ok (some encoding)) :
    (∀ s', scanDeclarations upper s data final = .ok s' → Scanned upper encoding (b ++ data) s' ∧
      Clean upper encoding (b ++ data) final ∧ s'.expanded = s.expanded) ∧
    (Clean upper encoding (b ++ data) final → ∃ s', scanDeclarations upper s data final = .ok s') := by
  obtain ⟨hprobe, hdecoder, htail⟩ := hs
  have hmark := detect_utf8sig hdetect
  have hscan : scanDeclarations upper s data final = scanInput upper s encoding []
      (if encoding = .utf8sig then (b ++ data).drop 3 else b ++ data) final := by
    unfold scanDeclarations
    rw [hdecoder, hprobe]
    dsimp only
    rw [hdetect]
    show (encoding.decoder.decode (b ++ data) final >>= _) = _
    rw [decoder_first hmark]
    simp only [bind_assoc, scanInput]
    rfl
  rw [hscan]
  have hnothing : s.decodedTail = lastChars 16 (upperText upper []) := htail
  refine scanInput_spec hupper (fun h => (hmark h).length_le) hnothing unmarked_nil ?_
  rw [Encoding.text]
  exact Option.map_id'.symm

/-- A scan without a decoder looks for the encoding first. -/
theorem scan_detects (hs : Probing b s) (h : scanDeclarations upper s data final = .ok s') :
    ∃ found, detectEncoding (b ++ data) final = .ok found := by
  obtain ⟨hprobe, hdecoder, -⟩ := hs
  unfold scanDeclarations at h
  rw [hdecoder, hprobe] at h
  obtain ⟨found, hfound, -⟩ := bind_eq_ok.mp h
  exact ⟨found, hfound⟩

theorem scan_unknown (hs : Probing b s) (hnone : detectEncoding (b ++ data) final = .ok none) :
    scanDeclarations upper s data final = .ok { s with rawProbe := b ++ data } := by
  obtain ⟨hprobe, hdecoder, -⟩ := hs
  unfold scanDeclarations
  rw [hdecoder, hprobe]
  dsimp only
  rw [hnone]
  rfl

/-- At the end some encoding is chosen. -/
theorem detect_final : detectEncoding b true ≠ .ok none := by
  unfold detectEncoding
  split_ifs
  all_goals try exact fun h => by cases h
  unfold detectUnmarked
  split
  · split_ifs
    all_goals exact fun h => by cases h
  · exact fun h => by cases h

/-! ### Which encoding -/

/-- Four bytes tell all. -/
theorem detect_four (w x y z : UInt8) (r t : Bytes) (f : Bool) :
    detectEncoding (w :: x :: y :: z :: r) f = detectEncoding (w :: x :: y :: z :: t) final := rfl

theorem detect_wide (h : bomUtf32le <+: b) : detectEncoding b final = .error wide := by
  obtain ⟨r, rfl⟩ := h
  rfl

theorem detect_utf16le (h : ¬ bomUtf32le <+: 0xFF :: 0xFE :: b) :
    detectEncoding (0xFF :: 0xFE :: b) final = .ok (some .utf16le) := by
  have hnot : bomUtf32le.isPrefixOf (0xFF :: 0xFE :: b) = false := by
    rw [← Bool.not_eq_true, List.isPrefixOf_iff_prefix]
    exact h
  rw [detectEncoding, hnot]
  rfl

/-- Fewer than four bytes tell nothing, or have one of the shorter marks. -/
theorem detect_short (h : b.length < 4) : detectEncoding b false = .ok none ∨ (∃ r, b = 0xFF :: 0xFE :: r) ∨
    (∃ r, b = 0xFE :: 0xFF :: r) ∨ ∃ r, b = 0xEF :: 0xBB :: 0xBF :: r := by
  by_cases hle : bomUtf16le <+: b
  · obtain ⟨r, rfl⟩ := hle
    exact .inr (.inl ⟨r, rfl⟩)
  by_cases hbe : bomUtf16be <+: b
  · obtain ⟨r, rfl⟩ := hbe
    exact .inr (.inr (.inl ⟨r, rfl⟩))
  by_cases hmark : bomUtf8 <+: b
  · obtain ⟨r, rfl⟩ := hmark
    exact .inr (.inr (.inr ⟨r, rfl⟩))
  left
  have hlong : ∀ {m : Bytes}, m.length = 4 → ¬ m <+: b := fun hm hp => by
    have := hp.length_le
    omega
  have hwide : (bomUtf32le.isPrefixOf b || bomUtf32be.isPrefixOf b) = true ↔ False := by
    rw [Bool.or_eq_true, List.isPrefixOf_iff_prefix, List.isPrefixOf_iff_prefix]
    exact iff_of_false (not_or.mpr ⟨hlong rfl, hlong rfl⟩) id
  unfold detectEncoding
  simp only [hwide, List.isPrefixOf_iff_prefix, hle, hbe, hmark, ↓reduceIte]
  unfold detectUnmarked
  split
  · simp only [List.length_cons] at h
    omega
  · rfl

/-- What the bytes so far tell, more bytes do not change, one mark apart. -/
theorem detect_append (h : ¬ bomUtf32le <+: b ++ data) (hknown : detectEncoding b false ≠ .ok none) :
    detectEncoding (b ++ data) final = detectEncoding b false := by
  by_cases hlong : 4 ≤ b.length
  · rcases b with _ | ⟨w, _ | ⟨x, _ | ⟨y, _ | ⟨z, r⟩⟩⟩⟩
    case cons.cons.cons.cons => exact detect_four w x y z ..
    all_goals
      simp only [List.length_cons, List.length_nil] at hlong
      omega
  · rcases detect_short (not_le.mp hlong) with hnone | ⟨r, rfl⟩ | ⟨r, rfl⟩ | ⟨r, rfl⟩
    · exact absurd hnone hknown
    · have hshort : ¬ bomUtf32le <+: 0xFF :: 0xFE :: r := fun hp => hlong hp.length_le
      rw [detect_utf16le hshort]
      exact detect_utf16le h
    · rfl
    · rfl

/-- Beginnings of the mark that is too long. -/
theorem detect_append_wide (h : bomUtf32le <+: b ++ data) (hknown : detectEncoding b false ≠ .ok none) :
    detectEncoding b false = .error wide ∨ detectEncoding b false = .ok (some .utf16le) := by
  by_cases hlong : 4 ≤ b.length
  · exact .inl (detect_wide (List.prefix_of_prefix_length_le h (List.prefix_append ..) hlong))
  · obtain ⟨t, ht⟩ := h
    rcases detect_short (not_le.mp hlong) with hnone | ⟨r, rfl⟩ | ⟨r, rfl⟩ | ⟨r, rfl⟩
    · exact absurd hnone hknown
    · exact .inr (detect_utf16le fun hp => hlong hp.length_le)
    · exact absurd (List.cons.inj ht).1 (by decide)
    · exact absurd (List.cons.inj ht).1 (by decide)

/-- The encoding that is chosen on the way. -/
def detected : Bytes → List Bytes → Except ReadError (Option Encoding)
  | b, [] => detectEncoding b true
  | b, data :: rest =>
      match detectEncoding (b ++ data) false with
      | .ok none => detected (b ++ data) rest
      | .ok (some encoding) => .ok (some encoding)
      | .error e => .error e

theorem detected_known {pieces : List Bytes} (hknown : detectEncoding (b ++ data) false ≠ .ok none) :
    detected b (data :: pieces) = detectEncoding (b ++ data) false := by
  rw [detected]
  split
  · contradiction
  · rename_i h
    exact h.symm
  · rename_i h
    exact h.symm

theorem detected_unknown {pieces : List Bytes} (hnone : detectEncoding (b ++ data) false = .ok none) :
    detected b (data :: pieces) = detected (b ++ data) pieces := by
  rw [detected, hnone]

theorem detected_eq : ∀ {pieces : List Bytes} {b : Bytes}, ¬ bomUtf32le <+: b ++ pieces.flatten →
    detected b pieces = detectEncoding (b ++ pieces.flatten) true
  | [], b, _ => by rw [detected, List.flatten_nil, List.append_nil]
  | data :: pieces, b, h => by
      rw [List.flatten_cons, ← List.append_assoc] at h ⊢
      by_cases hknown : detectEncoding (b ++ data) false = .ok none
      · rw [detected_unknown hknown, detected_eq h]
      · rw [detected_known hknown, detect_append h hknown]

theorem detected_wide : ∀ {pieces : List Bytes} {b : Bytes}, bomUtf32le <+: b ++ pieces.flatten →
    detected b pieces = .error wide ∨ detected b pieces = .ok (some .utf16le)
  | [], b, h => by
      rw [List.flatten_nil, List.append_nil] at h
      exact .inl (detect_wide h)
  | data :: pieces, b, h => by
      rw [List.flatten_cons, ← List.append_assoc] at h
      by_cases hknown : detectEncoding (b ++ data) false = .ok none
      · rw [detected_unknown hknown]
        exact detected_wide h
      · rw [detected_known hknown]
        exact detect_append_wide h hknown

/-! ### All reads -/

theorem read_iff {handed : Bytes} : read upper limit s data = .ok (handed, s') ↔
    handed = data ∧ s.expanded + data.length ≤ limit ∧
      scanDeclarations upper { s with expanded := s.expanded + data.length } data (data = []) = .ok s' := by
  rw [read]
  by_cases hlimit : limit < s.expanded + data.length
  · simp only [hlimit, ↓reduceIte]
    exact iff_of_false (fun h => by cases h) fun h => absurd hlimit (not_lt.mpr h.2.1)
  · simp only [hlimit, ↓reduceIte]
    rw [bind_eq_ok]
    constructor
    · rintro ⟨s₁, hscan, h⟩
      obtain ⟨rfl, rfl⟩ := Prod.mk.inj (Except.ok.inj h)
      exact ⟨rfl, not_lt.mp hlimit, hscan⟩
    · rintro ⟨rfl, -, hscan⟩
      exact ⟨s', hscan, rfl⟩

theorem readAll_cons {reads : List Bytes} {t : Reader} : (readAll upper limit s (data :: reads)).2 = .ok t ↔
    ∃ s', read upper limit s data = .ok (data, s') ∧ (readAll upper limit s' reads).2 = .ok t := by
  rw [readAll]
  cases hread : read upper limit s data with
  | error e => exact iff_of_false (fun h => by cases h) fun ⟨_, h, _⟩ => by cases h
  | ok x =>
      obtain ⟨handed, s'⟩ := x
      obtain ⟨rfl, -⟩ := read_iff.mp hread
      constructor
      · intro h
        exact ⟨s', rfl, h⟩
      · rintro ⟨s₁, heq, h⟩
        obtain ⟨-, rfl⟩ := Prod.mk.inj (Except.ok.inj heq)
        exact h

/-- What is read is handed on. -/
theorem readAll_handed : ∀ {reads : List Bytes} {s t : Reader},
    (readAll upper limit s reads).2 = .ok t → (readAll upper limit s reads).1 = reads
  | [], _, _, _ => rfl
  | data :: reads, s, t, h => by
      obtain ⟨s', hread, hrest⟩ := readAll_cons.mp h
      rw [readAll, hread]
      exact congrArg (data :: ·) (readAll_handed hrest)

theorem accepts_nil : Accepts upper limit s [] ↔ ∃ s', read upper limit s [] = .ok ([], s') := by
  constructor
  · rintro ⟨t, h⟩
    obtain ⟨s', hread, -⟩ := readAll_cons.mp h
    exact ⟨s', hread⟩
  · rintro ⟨s', hread⟩
    exact ⟨s', readAll_cons.mpr ⟨s', hread, rfl⟩⟩

theorem accepts_cons {pieces : List Bytes} : Accepts upper limit s (data :: pieces) ↔
    ∃ s', read upper limit s data = .ok (data, s') ∧ Accepts upper limit s' pieces := by
  constructor
  · rintro ⟨t, h⟩
    obtain ⟨s', hread, hrest⟩ := readAll_cons.mp h
    exact ⟨s', hread, t, hrest⟩
  · rintro ⟨s', hread, t, hrest⟩
    exact ⟨t, readAll_cons.mpr ⟨s', hread, hrest⟩⟩

/-- **With a decoder, the rest is accepted exactly when the whole is clean and within the budget.** -/
theorem accepts_scanned (hupper : IsUpper upper) : ∀ {pieces : List Bytes} {b : Bytes} {s : Reader},
    Scanned upper encoding b s → (∀ piece ∈ pieces, piece ≠ []) →
    (Accepts upper limit s pieces ↔ s.expanded + pieces.flatten.length ≤ limit ∧
      Clean upper encoding (b ++ pieces.flatten) true)
  | [], b, s, hs, _ => by
      have hs' : Scanned upper encoding b { s with expanded := s.expanded + 0 } := ⟨hs.long, hs.decoded⟩
      have hscan := scan_scanned hupper hs' [] true
      rw [accepts_nil, List.flatten_nil]
      constructor
      · rintro ⟨s', hread⟩
        obtain ⟨-, hlimit, hok⟩ := read_iff.mp hread
        exact ⟨hlimit, (hscan.1 s' hok).2.1⟩
      · rintro ⟨hlimit, hclean⟩
        obtain ⟨s', hok⟩ := hscan.2 hclean
        exact ⟨s', read_iff.mpr ⟨rfl, hlimit, hok⟩⟩
  | data :: pieces, b, s, hs, hne => by
      obtain ⟨hdata, hrest⟩ := List.forall_mem_cons.mp hne
      have hs₁ : Scanned upper encoding b { s with expanded := s.expanded + data.length } := ⟨hs.long, hs.decoded⟩
      have hscan := scan_scanned hupper hs₁ data false
      have hfinal : (decide (data = [])) = false := decide_eq_false hdata
      rw [accepts_cons, List.flatten_cons, List.length_append, ← List.append_assoc, ← Nat.add_assoc]
      constructor
      · rintro ⟨s', hread, haccepts⟩
        obtain ⟨-, -, hok⟩ := read_iff.mp hread
        rw [hfinal] at hok
        obtain ⟨hs', -, hexpanded⟩ := hscan.1 s' hok
        rw [accepts_scanned hupper hs' hrest, hexpanded] at haccepts
        exact haccepts
      · rintro ⟨hlimit, hclean⟩
        have hlong : encoding = .utf8sig → 3 ≤ (b ++ data).length := fun h => by
          have := hs.long h
          rw [List.length_append]
          omega
        obtain ⟨s', hok⟩ := hscan.2 (hclean.before hlong)
        obtain ⟨hs', -, hexpanded⟩ := hscan.1 s' hok
        refine ⟨s', read_iff.mpr ⟨rfl, by omega, by rw [hfinal]; exact hok⟩, ?_⟩
        rw [accepts_scanned hupper hs' hrest, hexpanded]
        exact ⟨hlimit, hclean⟩

/-- **Without one, it has to be chosen on the way.** -/
theorem accepts_probing (hupper : IsUpper upper) : ∀ {pieces : List Bytes} {b : Bytes} {s : Reader},
    Probing b s → (∀ piece ∈ pieces, piece ≠ []) →
    (Accepts upper limit s pieces ↔ s.expanded + pieces.flatten.length ≤ limit ∧
      ∃ encoding, detected b pieces = .ok (some encoding) ∧ Clean upper encoding (b ++ pieces.flatten) true)
  | [], b, s, hs, _ => by
      have hs' : Probing b { s with expanded := s.expanded + 0 } := ⟨hs.probe, hs.decoder, hs.tail⟩
      rw [accepts_nil, List.flatten_nil]
      constructor
      · rintro ⟨s', hread⟩
        obtain ⟨-, hlimit, hok⟩ := read_iff.mp hread
        obtain ⟨_ | encoding, hencoding⟩ := scan_detects hs' hok
        · exact absurd hencoding detect_final
        have hdetected : detected b [] = .ok (some encoding) := by
          rw [detected, ← List.append_nil b]
          exact hencoding
        exact ⟨hlimit, encoding, hdetected, ((scan_probing hupper hs' hencoding).1 s' hok).2.1⟩
      · rintro ⟨hlimit, encoding, hdetected, hclean⟩
        rw [detected, ← List.append_nil b] at hdetected
        obtain ⟨s', hok⟩ := (scan_probing hupper hs' hdetected).2 hclean
        exact ⟨s', read_iff.mpr ⟨rfl, hlimit, hok⟩⟩
  | data :: pieces, b, s, hs, hne => by
      obtain ⟨hdata, hrest⟩ := List.forall_mem_cons.mp hne
      have hs₁ : Probing b { s with expanded := s.expanded + data.length } := ⟨hs.probe, hs.decoder, hs.tail⟩
      have hfinal : (decide (data = [])) = false := decide_eq_false hdata
      rw [accepts_cons, List.flatten_cons, List.length_append, ← List.append_assoc, ← Nat.add_assoc]
      cases hdetect : detectEncoding (b ++ data) false with
      | error e =>
          refine iff_of_false ?_ ?_
          · rintro ⟨s', hread, -⟩
            obtain ⟨-, -, hok⟩ := read_iff.mp hread
            obtain ⟨found, hfound⟩ := scan_detects hs₁ hok
            rw [hfinal, hdetect] at hfound
            cases hfound
          · rintro ⟨-, encoding, hdetected, -⟩
            rw [detected_known (by rw [hdetect]; exact fun h => by cases h), hdetect] at hdetected
            cases hdetected
      | ok found =>
      cases found with
      | none =>
          have hok : scanDeclarations upper { s with expanded := s.expanded + data.length } data (data = []) =
              .ok { s with expanded := s.expanded + data.length, rawProbe := b ++ data } := by
            rw [hfinal]
            exact scan_unknown hs₁ hdetect
          have hs₂ : Probing (b ++ data) { s with expanded := s.expanded + data.length, rawProbe := b ++ data } :=
            ⟨rfl, hs.decoder, hs.tail⟩
          rw [detected_unknown hdetect, ← accepts_probing hupper hs₂ hrest]
          constructor
          · rintro ⟨s', hread, haccepts⟩
            obtain ⟨-, -, hscan⟩ := read_iff.mp hread
            obtain rfl := Except.ok.inj (hscan.symm.trans hok)
            exact haccepts
          · intro haccepts
            have hlimit := ((accepts_probing hupper hs₂ hrest).mp haccepts).1
            exact ⟨_, read_iff.mpr ⟨rfl, by dsimp only at hlimit; omega, hok⟩, haccepts⟩
      | some encoding =>
          have hscan := scan_probing hupper hs₁ hdetect
          rw [detected_known (by rw [hdetect]; exact fun h => by cases h), hdetect]
          constructor
          · rintro ⟨s', hread, haccepts⟩
            obtain ⟨-, -, hok⟩ := read_iff.mp hread
            rw [hfinal] at hok
            obtain ⟨hs', -, hexpanded⟩ := hscan.1 s' hok
            rw [accepts_scanned hupper hs' hrest, hexpanded] at haccepts
            exact ⟨haccepts.1, encoding, rfl, haccepts.2⟩
          · rintro ⟨hlimit, found, hfound, hclean⟩
            obtain rfl := Option.some.inj (Except.ok.inj hfound)
            have hlong : encoding = .utf8sig → 3 ≤ (b ++ data).length :=
              fun h => (detect_utf8sig hdetect h).length_le
            obtain ⟨s', hok⟩ := hscan.2 (hclean.before hlong)
            obtain ⟨hs', -, hexpanded⟩ := hscan.1 s' hok
            refine ⟨s', read_iff.mpr ⟨rfl, by omega, by rw [hfinal]; exact hok⟩, ?_⟩
            rw [accepts_scanned hupper hs' hrest, hexpanded]
            exact ⟨hlimit, hclean⟩

/-! ### The guarantees -/

/-- What a reader has seen stays scanned. -/
theorem readAll_keeps (hupper : IsUpper upper) : ∀ {reads : List Bytes} {b : Bytes} {s t : Reader},
    (Probing b s ∨ ∃ encoding, Scanned upper encoding b s) → (readAll upper limit s reads).2 = .ok t →
    Probing (b ++ reads.flatten) t ∨ ∃ encoding, Scanned upper encoding (b ++ reads.flatten) t
  | [], b, s, t, hs, h => by
      obtain rfl := Except.ok.inj h
      rw [List.flatten_nil, List.append_nil]
      exact hs
  | data :: reads, b, s, t, hs, h => by
      obtain ⟨s', hread, hrest⟩ := readAll_cons.mp h
      obtain ⟨-, -, hok⟩ := read_iff.mp hread
      rw [List.flatten_cons, ← List.append_assoc]
      refine readAll_keeps hupper ?_ hrest
      rcases hs with hs | ⟨encoding, hs⟩
      · have hs₁ : Probing b { s with expanded := s.expanded + data.length } := ⟨hs.probe, hs.decoder, hs.tail⟩
        obtain ⟨_ | encoding, hdetect⟩ := scan_detects hs₁ hok
        · rw [scan_unknown hs₁ hdetect] at hok
          obtain rfl := Except.ok.inj hok
          exact .inl ⟨rfl, hs.decoder, hs.tail⟩
        · exact .inr ⟨encoding, ((scan_probing hupper hs₁ hdetect).1 s' hok).1⟩
      · have hs₁ : Scanned upper encoding b { s with expanded := s.expanded + data.length } :=
          ⟨hs.long, hs.decoded⟩
        exact .inr ⟨encoding, ((scan_scanned hupper hs₁ data _).1 s' hok).1⟩

theorem probing_start (expanded : Nat) : Probing [] (.start expanded) := ⟨rfl, rfl, rfl⟩

theorem guards (hupper : IsUpper upper) (expanded : Nat) (b : Bytes) :
    Guards upper limit expanded b := by
  intro reads t _ h d hd text pending htext
  rcases readAll_keeps hupper (.inl (probing_start expanded)) h with
    hprobing | ⟨encoding, -, u, left, hu, hall, -, hclean⟩
  · rw [hprobing.decoder] at hd
    cases hd
  · obtain rfl := Option.some.inj (hu.symm.trans hd)
    rw [List.nil_append] at hall
    obtain ⟨rfl, -⟩ := Prod.mk.inj (Option.some.inj (hall.symm.trans htext))
    exact hclean

theorem handsOn (expanded : Nat) (b : Bytes) : HandsOn upper limit expanded b := by
  rintro pieces ⟨rfl, -⟩ ⟨t, h⟩
  rw [readAll_handed h]
  simp

/-- What is accepted under a cut. -/
theorem accepts_iff (hupper : IsUpper upper) {expanded : Nat} {pieces : List Bytes}
    (h : Splits b pieces) : Accepts upper limit (.start expanded) pieces ↔ expanded + b.length ≤ limit ∧
      ∃ encoding, detected [] pieces = .ok (some encoding) ∧ Clean upper encoding b true := by
  obtain ⟨rfl, hne⟩ := h
  exact accepts_probing hupper (probing_start expanded) hne

end

/-- **The reader is what it should be for every stream but those that begin with the mark of UTF-32, little endian, and
are accepted as UTF-16.** -/
theorem checkedReader_iff {upper : Nat → Str} (hupper : IsUpper upper) (limit expanded : Nat) (b : Bytes) :
    (SplitsAgree upper limit expanded b ∧ Guards upper limit expanded b ∧ HandsOn upper limit expanded b) ↔
      ¬ (bomUtf32le <+: b ∧ Clean upper .utf16le b true ∧ expanded + b.length ≤ limit) := by
  rw [and_iff_left (⟨guards hupper expanded b, handsOn expanded b⟩ : Guards upper limit expanded b ∧ _)]
  constructor
  · rintro h ⟨hmark, hclean, hlimit⟩
    obtain ⟨r, rfl⟩ := hmark
    -- in one piece the mark is seen, cut behind the second byte it is not
    have hwhole : Splits (bomUtf32le ++ r) [bomUtf32le ++ r] := ⟨by simp, by simp [bomUtf32le]⟩
    have hcut : Splits (bomUtf32le ++ r) [[0xFF, 0xFE], 0 :: 0 :: r] := ⟨by simp [bomUtf32le], by simp⟩
    have haccepts := (accepts_iff hupper hcut).mpr ⟨hlimit, .utf16le, rfl, hclean⟩
    obtain ⟨-, encoding, hdetected, -⟩ := (accepts_iff hupper hwhole).mp ((h _ _ hwhole hcut).mpr haccepts)
    cases hdetected
  · intro h pieces others hpieces hothers
    rw [accepts_iff hupper hpieces, accepts_iff hupper hothers]
    by_cases hmark : bomUtf32le <+: b
    · have hnever : ∀ {cut : List Bytes}, Splits b cut → ¬ (expanded + b.length ≤ limit ∧
          ∃ encoding, detected [] cut = .ok (some encoding) ∧ Clean upper encoding b true) := by
        rintro cut ⟨rfl, -⟩ ⟨hlimit, encoding, hdetected, hclean⟩
        rcases detected_wide (b := []) hmark with herror | hutf16
        · rw [herror] at hdetected
          cases hdetected
        · rw [hutf16] at hdetected
          obtain rfl := Option.some.inj (Except.ok.inj hdetected)
          exact h ⟨hmark, hclean, hlimit⟩
      exact iff_of_false (hnever hpieces) (hnever hothers)
    · have hsame : ∀ {cut : List Bytes}, Splits b cut → detected [] cut = detectEncoding b true := by
        rintro cut ⟨rfl, -⟩
        exact detected_eq (b := []) hmark
      rw [hsame hpieces, hsame hothers]

/-- Upper case of ASCII. -/
def asciiUpper (c : Nat) : Str := if 97 ≤ c ∧ c ≤ 122 then [c - 32] else [c]

theorem asciiUpper_isUpper : IsUpper asciiUpper := by
  intro c x hx
  unfold asciiUpper at hx
  split_ifs at hx with hlower
  · rw [List.mem_singleton.mp hx]
    exact if_neg (by omega)
  · rw [List.mem_singleton.mp hx]
    exact if_neg hlower

theorem checkedReader_ascii :
    SplitsAgree asciiUpper 100 0 [60, 97, 47, 62] ∧ Guards asciiUpper 100 0 [60, 97, 47, 62] ∧
      HandsOn asciiUpper 100 0 [60, 97, 47, 62] :=
  (checkedReader_iff asciiUpper_isUpper 100 0 _).mpr fun h => absurd h.1 (by decide)

/-- **In one piece `FF FE 00 00` is refused, in two it is accepted.** -/
theorem cut_mark_accepted :
    Splits [0xFF, 0xFE, 0, 0] [[0xFF, 0xFE, 0, 0]] ∧ Splits [0xFF, 0xFE, 0, 0] [[0xFF, 0xFE], [0, 0]] ∧
      ¬ Accepts asciiUpper 100 (.start 0) [[0xFF, 0xFE, 0, 0]] ∧
      Accepts asciiUpper 100 (.start 0) [[0xFF, 0xFE], [0, 0]] := by
  refine ⟨⟨rfl, by decide⟩, ⟨rfl, by decide⟩, ?_, ?_⟩
  · rintro ⟨s, h⟩
    cases h
  · exact ⟨_, rfl⟩

end Inspection
