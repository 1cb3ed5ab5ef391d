/-
What the check of a raw object promises, and what Spark reads of it.

The line reader keeps one invariant (`Bounded`): its buffer has between 4096 and 2^20 bytes, a
size that the doubling reaches exactly.  So it always has room for the next byte of a line, no
index leaves its range, and a line that comes out of it is the text up to a line feed.

`preflight_records` puts the lines together.  An accepted object is such lines and nothing
else, each of them a record.  Spark finds those records unless one of them has a carriage
return inside; then it finds more.
-/
import DataEngLab.GhArchive.RawPreflight

namespace GhArchive

open Lib

namespace RawPreflight

/-- The buffer has room, and no more than a line may need. -/
structure ReusableLineReader.Bounded (r : ReusableLineReader) : Prop where
  pos : 0 < r.buffer.length
  le : r.buffer.length ≤ maxLineBytes

/-- What a call leaves behind, whatever comes of it. -/
structure Left {α : Type} (result : ReusableLineReader × Except Failure α) : Prop where
  bounded : result.1.Bounded
  inRange : result.2 ≠ .error .indexOutOfBounds

namespace ReusableLineReader

variable {r r' : ReusableLineReader} {ending : Ending} {stream rest : Bytes} {length n : Nat} {value : UInt8}

/-! ### The buffer -/

theorem initial_bounded : initial.Bounded := by
  constructor <;> rw [initial, List.length_replicate]
  · exact Nat.succ_pos _
  · decide

theorem grow_spec (h : r.Bounded) (hlt : r.buffer.length < maxLineBytes) :
    ∃ g, r.grow = .ok g ∧ g.Bounded ∧ r.buffer.length < g.buffer.length ∧ r.buffer <+: g.buffer := by
  have hpos := h.pos
  rw [grow, if_pos (by omega)]
  refine ⟨_, rfl, ⟨?_, ?_⟩, ?_, List.prefix_append _ _⟩ <;>
    simp only [List.length_append, List.length_replicate] <;> omega

theorem makeRoom_spec (h : r.Bounded) (hle : length ≤ r.buffer.length) (hlt : length < maxLineBytes) :
    ∃ g, r.makeRoom length = .ok g ∧ g.Bounded ∧ length < g.buffer.length ∧
      g.buffer.take length = r.buffer.take length := by
  rw [makeRoom]
  split_ifs with heq
  · obtain ⟨g, hg, hbounded, hlen, hprefix⟩ := grow_spec h (by omega)
    refine ⟨g, hg, hbounded, by omega, ?_⟩
    obtain ⟨tail, htail⟩ := hprefix
    rw [← htail, List.take_append_of_le_length hle]
  · exact ⟨r, rfl, h, by omega, rfl⟩

theorem store_spec (value : UInt8) (h : r.Bounded) (hlt : length < r.buffer.length) :
    ∃ g, r.store length value = .ok g ∧ g.Bounded ∧ length + 1 ≤ g.buffer.length ∧
      g.buffer.take (length + 1) = r.buffer.take length ++ [value] := by
  rw [store, if_pos hlt]
  refine ⟨_, rfl, ⟨?_, ?_⟩, ?_, ?_⟩
  · rw [List.length_set]
    exact h.pos
  · rw [List.length_set]
    exact h.le
  · rw [List.length_set]
    omega
  · have hset : (r.buffer.set length value)[length]? = some value := by
      rw [List.getElem?_set_self hlt]
    rw [List.take_add_one, hset, List.take_set_of_le (le_refl _)]
    rfl

/-! ### One line -/

/-- A line that is read is the text up to a line feed, and the buffer begins with it. -/
structure IsLine (stream : Bytes) (start : Bytes) (r : ReusableLineReader) (n : Nat) (rest line : Bytes) : Prop where
  stream_eq : stream = line ++ 10 :: rest
  no_feed : ∀ b ∈ line, isLineFeed b = false
  length_eq : n = start.length + line.length
  pos : 0 < n
  le : n ≤ maxLineBytes
  buffer_eq : r.buffer.take n = start ++ line

theorem fill_spec (ending : Ending) : ∀ (stream : Bytes) {r : ReusableLineReader} {length : Nat}, r.Bounded →
    length ≤ r.buffer.length → Left (r.fill ending stream length) ∧
      ∀ r' n rest, r.fill ending stream length = (r', .ok (n, rest)) →
        ∃ line, IsLine stream (r.buffer.take length) r' n rest line
  | [], r, length, h, _ => by
      rw [fill]
      refine ⟨⟨h, ?_⟩, by simp⟩
      cases ending <;> simp [Ending.failure]
  | value :: stream, r, length, h, hle => by
      rw [fill]
      by_cases hv : isLineFeed value = true
      · rw [if_pos hv]
        by_cases hpos : length > 0
        · rw [if_pos hpos]
          refine ⟨⟨h, by simp⟩, ?_⟩
          intro r' n rest heq
          simp only [Prod.mk.injEq, Except.ok.injEq] at heq
          obtain ⟨rfl, rfl, rfl⟩ := heq
          rw [isLineFeed, beq_iff_eq] at hv
          refine ⟨[], ⟨by rw [hv]; rfl, by simp, ?_, hpos, hle.trans h.le, (List.append_nil _).symm⟩⟩
          rw [List.length_take_of_le hle, List.length_nil, Nat.add_zero]
        · rw [if_neg hpos]
          exact ⟨⟨h, by simp [fail]⟩, by simp [fail]⟩
      · rw [if_neg hv]
        by_cases hmax : length = maxLineBytes
        · rw [if_pos hmax]
          exact ⟨⟨h, by simp [fail]⟩, by simp [fail]⟩
        · rw [if_neg hmax]
          have hlt : length < maxLineBytes := lt_of_le_of_ne (hle.trans h.le) hmax
          obtain ⟨grown, hgrown, hbounded, hroom, htake⟩ := makeRoom_spec h hle hlt
          obtain ⟨stored, hstored, hbounded', hroom', htake'⟩ := store_spec value hbounded hroom
          rw [hgrown]
          dsimp only
          rw [hstored]
          dsimp only
          obtain ⟨hleft, hline⟩ := fill_spec ending stream hbounded' hroom'
          refine ⟨hleft, ?_⟩
          intro r' n rest heq
          obtain ⟨line, hline⟩ := hline r' n rest heq
          rw [htake', htake] at hline
          refine ⟨value :: line, ⟨by rw [hline.stream_eq]; rfl, ?_, ?_, hline.pos, hline.le, ?_⟩⟩
          · exact List.forall_mem_cons.mpr ⟨by simpa using hv, hline.no_feed⟩
          · rw [hline.length_eq, List.length_append, List.length_singleton, List.length_cons]
            omega
          · rw [hline.buffer_eq, List.append_assoc, List.singleton_append]

theorem next_spec (ending : Ending) (stream : Bytes) (h : r.Bounded) : Left (r.next ending stream) ∧
    (∀ r', r.next ending stream = (r', .ok none) → stream = [] ∧ ending = .eof) ∧
    ∀ r' n rest, r.next ending stream = (r', .ok (some (n, rest))) → ∃ line, IsLine stream [] r' n rest line := by
  cases stream with
  | nil =>
      rw [next]
      cases ending <;> exact ⟨⟨h, by simp [Ending.failure]⟩, by simp [Ending.failure], by simp [Ending.failure]⟩
  | cons value stream =>
      obtain ⟨hleft, hline⟩ := fill_spec ending (value :: stream) h (Nat.zero_le _)
      rw [List.take_zero] at hline
      rw [next]
      generalize fill ending (value :: stream) r 0 = result at hleft hline ⊢
      obtain ⟨r₁, line⟩ := result
      cases line with
      | error e => exact ⟨⟨hleft.bounded, by simpa [Except.map] using hleft.inRange⟩, by simp [Except.map],
          by simp [Except.map]⟩
      | ok line =>
          obtain ⟨n₁, rest₁⟩ := line
          refine ⟨⟨hleft.bounded, by simp [Except.map]⟩, by simp [Except.map], ?_⟩
          intro r' n rest heq
          simp only [Except.map, Prod.mk.injEq, Except.ok.injEq, Option.some.injEq] at heq
          obtain ⟨rfl, rfl, rfl⟩ := heq
          exact hline _ _ _ rfl

end ReusableLineReader

/-! ### Records -/

variable {jackson : Jackson}

/-- A member that is a text with more than white space in it. -/
def HasText (parent : List (Str × Json)) (name : String) : Prop :=
  ∃ value, Json.get name parent = some (.str value) ∧ ∃ c ∈ value, 32 < c

/-- An exact second in UTC, and the text it is printed as. -/
def IsTimestamp (createdAt : Str) : Prop :=
  timestampRegex.fullmatch createdAt = true ∧ ∃ t : Instant, t.toString = createdAt

/-- A line that is one record. -/
structure IsRecord (jackson : Jackson) (line : Bytes) : Prop where
  length_pos : 1 ≤ line.length
  length_le : line.length ≤ maxLineBytes
  no_feed : ∀ b ∈ line, isLineFeed b = false
  object : ∃ fields actor repo createdAt, jackson line = some ⟨some (.obj fields), some true⟩ ∧
    depth (.obj fields) ≤ maxDepth ∧ HasText fields "id" ∧ HasText fields "type" ∧
    Json.get "actor" fields = some (.obj actor) ∧ HasText actor "login" ∧
    Json.get "repo" fields = some (.obj repo) ∧ HasText repo "name" ∧
    Json.get "created_at" fields = some (.str createdAt) ∧ IsTimestamp createdAt

section
variable {parent : List (Str × Json)} {name : String}

theorem requireText_ok {value : Str} (h : requireText parent name = .ok value) :
    Json.get name parent = some (.str value) ∧ ∃ c ∈ value, 32 < c := by
  rw [requireText] at h
  split at h
  · rename_i text hget
    split_ifs at h with hblank
    · cases h
    · obtain rfl := Except.ok.inj h
      refine ⟨hget, ?_⟩
      by_contra hnone
      refine hblank (List.isEmpty_iff.mpr (trimmed_eq_nil_iff.mpr fun c hc => ?_))
      rw [decide_eq_true_eq]
      by_contra hlt
      exact hnone ⟨c, hc, Nat.lt_of_not_le hlt⟩
  · cases h

theorem requireObject_ok {kvs : List (Str × Json)} (h : requireObject parent name = .ok kvs) :
    Json.get name parent = some (.obj kvs) := by
  rw [requireObject] at h
  split at h
  · rename_i fields hget
    rw [hget, Except.ok.inj h]
  · cases h

theorem requireTimestamp_ok {createdAt : Str} (h : requireTimestamp createdAt = .ok ()) : IsTimestamp createdAt := by
  rw [requireTimestamp] at h
  split_ifs at h with hregex
  · cases h
  · refine ⟨by simpa using hregex, ?_⟩
    split at h
    · cases h
    · rename_i t ht
      split_ifs at h with heq
      · exact ⟨t, heq⟩
      · cases h

end

theorem requireRecord_ok {document : Option Json} {fields : List (Str × Json)}
    (h : requireRecord document = .ok fields) : document = some (.obj fields) := by
  unfold requireRecord at h
  split at h
  · rw [Except.ok.inj h]
  · cases h

theorem requireEnded_ok {ended : Option Bool} (h : requireEnded ended = .ok ()) : ended = some true := by
  cases ended with
  | none => cases h
  | some ended =>
      rw [requireEnded, require_eq_ok] at h
      rw [h]

/-- A line that passes is a record. -/
theorem validateLine_ok {line : Bytes} (h : validateLine jackson line = .ok ()) :
    ∃ fields actor repo createdAt, jackson line = some ⟨some (.obj fields), some true⟩ ∧
      depth (.obj fields) ≤ maxDepth ∧ HasText fields "id" ∧ HasText fields "type" ∧
      Json.get "actor" fields = some (.obj actor) ∧ HasText actor "login" ∧
      Json.get "repo" fields = some (.obj repo) ∧ HasText repo "name" ∧
      Json.get "created_at" fields = some (.str createdAt) ∧ IsTimestamp createdAt := by
  rw [validateLine] at h
  split at h
  · cases h
  · rename_i reading hreading
    simp only [bind_eq_ok, require_eq_ok, decide_eq_true_eq, exists_const] at h
    obtain ⟨fields, hfields, _, hended, hdepth, id, hid, type, htype, actor, hactor, login, hlogin, repo, hrepo, name,
      hname, createdAt, hcreated, htimestamp⟩ := h
    refine ⟨fields, actor, repo, createdAt, ?_, hdepth, ⟨id, requireText_ok hid⟩, ⟨type, requireText_ok htype⟩,
      requireObject_ok hactor, ⟨login, requireText_ok hlogin⟩, requireObject_ok hrepo, ⟨name, requireText_ok hname⟩,
      (requireText_ok hcreated).1, requireTimestamp_ok htimestamp⟩
    rw [hreading, ← requireRecord_ok hfields, ← requireEnded_ok hended]

theorem bind_inRange {α β : Type} {x : Except Failure α} {f : α → Except Failure β}
    (hx : x ≠ .error .indexOutOfBounds) (hf : ∀ a, f a ≠ .error .indexOutOfBounds) :
    (x >>= f) ≠ .error .indexOutOfBounds := by
  cases x with
  | error e => simpa [bind, Except.bind] using hx
  | ok a => exact hf a

theorem require_inRange {c : Bool} {message : String} :
    require c (Failure.illegalArgument message) ≠ .error .indexOutOfBounds := by
  cases c <;> simp

theorem requireText_inRange {parent : List (Str × Json)} {name : String} :
    requireText parent name ≠ .error .indexOutOfBounds := by
  rw [requireText]
  split
  · split_ifs <;> simp [fail]
  · simp [fail]

theorem requireObject_inRange {parent : List (Str × Json)} {name : String} :
    requireObject parent name ≠ .error .indexOutOfBounds := by
  rw [requireObject]
  split <;> simp [fail]

theorem requireTimestamp_inRange {createdAt : Str} : requireTimestamp createdAt ≠ .error .indexOutOfBounds := by
  rw [requireTimestamp]
  split_ifs
  · simp [fail]
  · split
    · simp
    · split_ifs <;> simp [fail]

theorem requireRecord_inRange {document : Option Json} : requireRecord document ≠ .error .indexOutOfBounds := by
  unfold requireRecord
  split <;> simp [fail]

theorem requireEnded_inRange {ended : Option Bool} : requireEnded ended ≠ .error .indexOutOfBounds := by
  cases ended with
  | none => simp [requireEnded]
  | some ended => exact require_inRange

theorem validateLine_inRange (jackson : Jackson) (line : Bytes) : validateLine jackson line ≠ .error .indexOutOfBounds := by
  rw [validateLine]
  split
  · simp
  · exact bind_inRange requireRecord_inRange fun fields => bind_inRange requireEnded_inRange fun _ =>
      bind_inRange require_inRange fun _ => bind_inRange requireText_inRange fun _ =>
      bind_inRange requireText_inRange fun _ => bind_inRange requireObject_inRange fun actor =>
      bind_inRange requireText_inRange fun _ => bind_inRange requireObject_inRange fun repo =>
      bind_inRange requireText_inRange fun _ => bind_inRange requireText_inRange fun _ => requireTimestamp_inRange

/-! ### The loop over the lines -/

/-- The lines of a stream that the loop accepts. -/
structure AreRecords (jackson : Jackson) (stream : Bytes) (lines : List Bytes) : Prop where
  stream_eq : stream = lines.flatMap (· ++ [10])
  records : ∀ line ∈ lines, IsRecord jackson line

theorem readRecords_spec (jackson : Jackson) (ending : Ending) (stream : Bytes) {r : ReusableLineReader}
    {records : Nat} (h : r.Bounded)
    (hrecords : records ≤ maxRecords) : Left (readRecords jackson ending r stream records) ∧
    ∀ r' total, readRecords jackson ending r stream records = (r', .ok total) → ending = .eof ∧ total ≤ maxRecords ∧
      ∃ lines, AreRecords jackson stream lines ∧ total = records + lines.length := by
  obtain ⟨hleft, hend, hline⟩ := ReusableLineReader.next_spec ending stream h
  rw [readRecords]
  split
  · rename_i r₁ e hnext
    rw [hnext] at hleft
    exact ⟨⟨hleft.bounded, by simpa using hleft.inRange⟩, by simp⟩
  · rename_i r₁ hnext
    obtain ⟨rfl, heof⟩ := hend r₁ hnext
    rw [hnext] at hleft
    refine ⟨⟨hleft.bounded, by simp⟩, ?_⟩
    intro r' total heq
    simp only [Prod.mk.injEq, Except.ok.injEq] at heq
    obtain ⟨rfl, rfl⟩ := heq
    exact ⟨heof, hrecords, [], ⟨rfl, by simp⟩, rfl⟩
  · rename_i r₁ n rest hnext
    obtain ⟨line, hline⟩ := hline r₁ n rest hnext
    have hshort := ReusableLineReader.next_length hnext
    rw [hnext] at hleft
    have hbuffer : r₁.buffer.take n = line := hline.buffer_eq
    rw [hbuffer]
    split_ifs with hmany
    · exact ⟨⟨hleft.bounded, by simp [fail]⟩, by simp [fail]⟩
    · split
      · rename_i e hvalid
        refine ⟨⟨hleft.bounded, ?_⟩, by simp⟩
        have := validateLine_inRange jackson line
        rw [hvalid] at this
        simpa using this
      · rename_i hvalid
        obtain ⟨hrest, htotal⟩ := readRecords_spec jackson ending rest hleft.bounded
          (show records + 1 ≤ maxRecords by omega)
        refine ⟨hrest, ?_⟩
        intro r' total heq
        obtain ⟨heof, hle, lines, hlines, rfl⟩ := htotal r' total heq
        have hlength : n = line.length := by rw [hline.length_eq, List.length_nil, Nat.zero_add]
        refine ⟨heof, hle, line :: lines, ⟨?_, List.forall_mem_cons.mpr ⟨?_, hlines.records⟩⟩, ?_⟩
        · rw [hline.stream_eq, hlines.stream_eq, List.flatMap_cons, List.append_assoc, List.singleton_append]
        · exact ⟨hlength ▸ hline.pos, hlength ▸ hline.le, hline.no_feed, validateLine_ok hvalid⟩
        · rw [List.length_cons]
          omega
termination_by stream.length

/-! ### The whole object -/

theorem counted_eof {maximum : Nat} {ending : Ending} : ∀ {pieces : List Bytes} {count : Nat} {bytes : Bytes},
    counted maximum count pieces ending = (bytes, .eof) → bytes = pieces.flatten
  | [], count, bytes, h => by
      rw [counted, Prod.mk.injEq] at h
      rw [← h.1, List.flatten_nil]
  | piece :: rest, count, bytes, h => by
      rw [counted] at h
      split_ifs at h
      · simp at h
      · simp only [Prod.mk.injEq] at h
        obtain ⟨hbytes, hlast⟩ := h
        rw [List.flatten_cons, ← counted_eof (Prod.ext rfl hlast), hbytes]

theorem requireLocked_ok {source : Source} {lock : SourceLock} (h : requireLocked source lock = .ok ()) :
    source.size = lock.sizeBytes ∧ source.sha256 = lock.sha256 := by
  simp only [requireLocked, bind_eq_ok, require_eq_ok, beq_iff_eq] at h
  obtain ⟨_, -, _, hsize, hdigest⟩ := h
  exact ⟨hsize, hdigest⟩

/-- An accepted object: its bytes are the lines, each of them a record, and it is the locked one. -/
structure Accepted (jackson : Jackson) (source : Source) (lock : SourceLock) (stats : PreflightStats)
    (lines : List Bytes) : Prop where
  bytes : source.expanded.flatten = lines.flatMap (· ++ [10])
  nonempty : 1 ≤ lines.length
  bounded : lines.length ≤ maxRecords
  records : ∀ line ∈ lines, IsRecord jackson line
  reported : stats.records = lines.length
  size : source.size = lock.sizeBytes
  digest : source.sha256 = lock.sha256

theorem preflight_spec (jackson : Jackson) (source : Source) (lock : SourceLock) : Left (preflight jackson source lock) ∧
    ∀ stats, (preflight jackson source lock).2 = .ok stats → ∃ lines, Accepted jackson source lock stats lines := by
  rw [preflight]
  split_ifs
  · exact ⟨⟨ReusableLineReader.initial_bounded, by simp [fail]⟩, by simp [fail]⟩
  · generalize hcounted : counted maxExpandedBytes 0 source.expanded source.ending = delivered
    obtain ⟨stream, ending⟩ := delivered
    dsimp only
    obtain ⟨hleft, hall⟩ := readRecords_spec jackson ending stream
      ReusableLineReader.initial_bounded (Nat.zero_le maxRecords)
    generalize readRecords jackson ending .initial stream 0 = result at hleft hall ⊢
    obtain ⟨r, records⟩ := result
    dsimp only
    constructor
    · refine ⟨hleft.bounded, bind_inRange hleft.inRange fun total => bind_inRange require_inRange fun _ => ?_⟩
      refine bind_inRange ?_ fun _ => by simp [pure, Except.pure]
      exact bind_inRange require_inRange fun _ => bind_inRange require_inRange fun _ => require_inRange
    · intro stats h
      simp only [bind_eq_ok, require_eq_ok, decide_eq_true_eq] at h
      obtain ⟨total, htotal, _, hpos, _, hlocked, hstats⟩ := h
      rw [htotal] at hall
      obtain ⟨rfl, hle, lines, hlines, hlength⟩ := hall r total rfl
      rw [Nat.zero_add] at hlength
      obtain ⟨hsize, hdigest⟩ := requireLocked_ok hlocked
      refine ⟨lines, ?_, by omega, by omega, hlines.records, ?_, hsize, hdigest⟩
      · rw [← counted_eof hcounted, hlines.stream_eq]
      · rw [← hlength, ← Except.ok.inj hstats]

/-! ### Spark's records -/

def isLineEnd (b : UInt8) : Bool := b == 10 || b == 13

theorem isJsonSpace_of_isLineEnd (b : UInt8) (h : isLineEnd b = true) : isJsonSpace b = true := by
  rw [isLineEnd, Bool.or_eq_true, beq_iff_eq, beq_iff_eq] at h
  rcases h with rfl | rfl <;> rfl

/-- A carriage return and a line feed end one line, and otherwise there is a blank one between them. -/
theorem recordsOf_sparkLines (piece bytes : Bytes) :
    recordsOf isJsonSpace (sparkLines piece bytes) = recordsOf isJsonSpace (pieces isLineEnd piece bytes) := by
  fun_induction sparkLines piece bytes with
  | case1 piece hempty =>
      rw [List.isEmpty_iff] at hempty
      rw [hempty]
      rfl
  | case2 piece hne => rfl
  | case3 piece rest ih =>
      rw [pieces, if_pos (by decide), pieces, if_pos (by decide)]
      refine recordsOf_cons_congr rfl ?_
      rw [List.reverse_nil, recordsOf_blank (fun c hc => absurd hc List.not_mem_nil)]
      exact ih
  | case4 piece c rest hnot hend ih =>
      rw [pieces, if_pos (show isLineEnd c = true from hend)]
      exact recordsOf_cons_congr rfl ih
  | case5 piece c rest hnot hend ih =>
      rw [pieces, if_neg (show ¬ isLineEnd c = true from hend)]
      exact ih

theorem sparkRecords_eq (bytes : Bytes) : sparkRecords bytes = records isLineEnd isJsonSpace bytes :=
  recordsOf_sparkLines [] bytes

/-! ### Both readings -/

/-- A line of white space has no document. -/
def NoTokens (jackson : Jackson) : Prop :=
  ∀ line, (∀ b ∈ line, isJsonSpace b = true) → ∀ reading, jackson line = some reading → reading.document = none

/-- A record is more than white space. -/
theorem IsRecord.not_blank {line : Bytes} (hjackson : NoTokens jackson) (h : IsRecord jackson line) :
    trimmed isJsonSpace line ≠ [] := by
  intro hblank
  obtain ⟨fields, actor, repo, createdAt, hread, -⟩ := h.object
  cases hjackson line (trimmed_eq_nil_iff.mp hblank) _ hread

/-- A carriage return stands between the tokens of a record. -/
def HasInnerReturn (line : Bytes) : Prop := 13 ∈ trimmed isJsonSpace line

theorem not_lineEnd {line : Bytes} (hfeed : ∀ b ∈ line, isLineFeed b = false) (hinner : ¬ HasInnerReturn line) :
    ∀ b ∈ trimmed isJsonSpace line, isLineEnd b = false := by
  intro b hb
  obtain ⟨before, after, hsplit, -, -⟩ := trimmed_split isJsonSpace line
  have hmem : b ∈ line := by
    rw [hsplit]
    exact List.mem_append_left _ (List.mem_append_right _ hb)
  have hten := hfeed b hmem
  rw [isLineEnd, Bool.or_eq_false_iff]
  refine ⟨hten, ?_⟩
  rw [beq_eq_false_iff_ne]
  rintro rfl
  exact hinner hb

/-- **An accepted object is its records, and Spark finds the same ones exactly when none of them has a carriage
return inside**; otherwise it finds more.  Whatever the object, the buffer keeps to its bound and no index leaves its
range. -/
theorem preflight_records (jackson : Jackson) (hjackson : NoTokens jackson) (source : Source) (lock : SourceLock) :
    (preflight jackson source lock).1.buffer.length ≤ maxLineBytes ∧
    (preflight jackson source lock).2 ≠ .error .indexOutOfBounds ∧
    ∀ stats, validateGzipWithStats jackson source lock = .ok stats →
      ∃ lines, Accepted jackson source lock stats lines ∧
        ((∀ line ∈ lines, ¬ HasInnerReturn line) →
          sparkRecords source.expanded.flatten = lines.map (trimmed isJsonSpace)) ∧
        ((∃ line ∈ lines, HasInnerReturn line) →
          lines.length < (sparkRecords source.expanded.flatten).length) := by
  obtain ⟨hleft, haccepted⟩ := preflight_spec jackson source lock
  refine ⟨hleft.bounded.le, hleft.inRange, fun stats h => ?_⟩
  have hok : (preflight jackson source lock).2 = .ok stats := by
    rw [validateGzipWithStats] at h
    cases hp : (preflight jackson source lock).2 with
    | error e =>
        rw [hp] at h
        cases h
    | ok found =>
        rw [hp, Except.mapError, Except.ok.injEq] at h
        rw [h]
  obtain ⟨lines, hlines⟩ := haccepted stats hok
  have hblank : ∀ line ∈ lines, trimmed isJsonSpace line ≠ [] := fun line hline =>
    (hlines.records line hline).not_blank hjackson
  rw [sparkRecords_eq, hlines.bytes]
  refine ⟨lines, hlines, fun hinner => ?_, ?_⟩
  · exact records_of_lines (by decide) hblank fun line hline =>
      not_lineEnd (hlines.records line hline).no_feed (hinner line hline)
  · rintro ⟨line, hline, hinner⟩
    exact records_more isJsonSpace_of_isLineEnd (by decide) hblank hline hinner (by decide)

/-! ### A carriage return between two tokens -/

/-- A reader of one text. -/
def readsOnly (text : Bytes) (document : Json) : Jackson := fun line =>
  if trimmed isJsonSpace line = text then some ⟨some document, some true⟩ else none

theorem readsOnly_noTokens {text : Bytes} (htext : text ≠ []) (document : Json) :
    NoTokens (readsOnly text document) := by
  intro line hblank reading h
  rw [readsOnly, trimmed_eq_nil_iff.mpr hblank, if_neg htext.symm] at h
  cases h

/-- The object with `between` after its first member. -/
def recordText (between : String) : Bytes := asciiBytes (lit "\x7b\"id\":\"1\"," ++ lit between ++
  lit "\"type\":\"PushEvent\",\"actor\":\x7b\"login\":\"alice\"\x7d,\"repo\":\x7b\"name\":\"a/r\"\x7d," ++
  lit "\"created_at\":\"2023-01-01T00:00:00Z\"\x7d")

def recordDocument : Json := .obj [(lit "id", .str (lit "1")), (lit "type", .str (lit "PushEvent")),
  (lit "actor", .obj [(lit "login", .str (lit "alice"))]), (lit "repo", .obj [(lit "name", .str (lit "a/r"))]),
  (lit "created_at", .str (lit "2023-01-01T00:00:00Z"))]

/-- An object of one line, and its lock. -/
def oneLine (line : Bytes) : Source := ⟨100, List.replicate 64 48, [line ++ [10]], .eof⟩

def oneLock : SourceLock := ⟨100, List.replicate 64 48⟩

/-- A line that Windows has ended is one record to both readers. -/
theorem preflight_records_windows : ∃ lines, Accepted (readsOnly (recordText "") recordDocument)
    (oneLine (recordText "" ++ [13])) oneLock ⟨1, 4096, 1⟩ lines ∧
    ((∀ line ∈ lines, ¬ HasInnerReturn line) →
      sparkRecords (oneLine (recordText "" ++ [13])).expanded.flatten = lines.map (trimmed isJsonSpace)) ∧
    ((∃ line ∈ lines, HasInnerReturn line) →
      lines.length < (sparkRecords (oneLine (recordText "" ++ [13])).expanded.flatten).length) :=
  (preflight_records (readsOnly (recordText "") recordDocument) (readsOnly_noTokens (by decide +kernel) recordDocument)
    (oneLine (recordText "" ++ [13])) oneLock).2.2 ⟨1, 4096, 1⟩ (by decide +kernel)

/-- A line with a carriage return after its first member is one record to the check and two to Spark. -/
theorem return_splits_record : validateGzipWithStats (readsOnly (recordText "\r") recordDocument)
    (oneLine (recordText "\r")) oneLock = .ok ⟨1, 4096, 1⟩ ∧
    (sparkRecords (oneLine (recordText "\r")).expanded.flatten).length = 2 := by
  constructor <;> decide +kernel

end RawPreflight

end GhArchive
