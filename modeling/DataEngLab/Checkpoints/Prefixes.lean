/-
Who owns a key.

The policy recognises a prefix by a full match, the gateway finds the prefix of a key with
looser expressions that it tries entry by entry.  Both read paths of one of three shapes
(`Rooted`), and no such path lies under another: their first segments tell the shapes
apart, and paths of one shape have equally many segments.  So a key lies under at most one
of them, in whatever order and however loosely it is looked for, and the two recognisers
agree (`validateDataKey_iff`).
-/
import DataEngLab.Checkpoints.Eligible
import DataEngLab.Checkpoints.Listing
import DataEngLab.Lib.Paths

namespace Checkpoints

open Lib

/-! ### The shapes of a prefix -/

/-- The paths of the durable streams. -/
def streamNames : List String := ["events", "event_windows", "online_retail_cdc"]

/-- `[0-9a-f-]{36}` -/
def looseRun : Pattern := Pattern.times 36 fun c => isHex c || c == 45

/-- The segments of a prefix, where `run` is the expression for the identity of a run. -/
inductive Rooted (run : Pattern) : List Str → Prop
  | stream (name : String) (known : name ∈ streamNames) : Rooted run [lit name]
  | generation (scale : String) (known : scale ∈ scaleNames) (publication manifest : Str)
      (hex : (Pattern.times 32 isHex).fullmatch publication = true)
      (hex' : (Pattern.times 64 isHex).fullmatch manifest = true) :
      Rooted run [lit "gh_events_file", lit scale, publication, manifest]
  | scratch (id : Str) (hid : run.fullmatch id = true) : Rooted run [lit "streaming_test", id]

/-- What a segment is made of. -/
def isSegmentChar (c : Nat) : Bool := isAlnum c || c == 95 || c == 45

/-- A segment that is not empty, of letters, digits, `_` and the hyphen. -/
def SafeSegment (s : Str) : Prop := s ≠ [] ∧ ∀ c ∈ s, isSegmentChar c = true

section
variable {run : Pattern} {segs segs' : List Str} {s : Str} {c : Nat}

theorem isSegmentChar_of_isHex (h : isHex c = true) : isSegmentChar c = true := by
  simp only [isHex, isDigit, Bool.or_eq_true, Bool.and_eq_true, decide_eq_true_eq] at h
  simp only [isSegmentChar, isAlnum, isDigit, Bool.or_eq_true, Bool.and_eq_true, decide_eq_true_eq]
  omega

/-- A segment holds no slash, dot, colon or backslash. -/
theorem isSegmentChar_ne (h : isSegmentChar c = true) : c ≠ 47 ∧ c ≠ 46 ∧ c ≠ 58 ∧ c ≠ 92 ∧ c < 128 := by
  simp only [isSegmentChar, isAlnum, isDigit, Bool.or_eq_true, Bool.and_eq_true, decide_eq_true_eq,
    beq_iff_eq] at h
  omega

theorem isSegmentChar_looseRun : ∀ cls ∈ looseRun, ∀ a, cls a = true → isSegmentChar a = true := by
  intro cls hcls a ha
  rw [List.eq_of_mem_replicate hcls, Bool.or_eq_true, beq_iff_eq] at ha
  rcases ha with ha | rfl
  · exact isSegmentChar_of_isHex ha
  · rfl

theorem isSegmentChar_times {n : Nat} : ∀ cls ∈ Pattern.times n isHex, ∀ a, cls a = true → isSegmentChar a = true := by
  intro cls hcls a ha
  rw [List.eq_of_mem_replicate hcls] at ha
  exact isSegmentChar_of_isHex ha

/-- The identity of a run, as the policy reads it, is one that the gateway reads. -/
theorem looseRun_of_scratchPattern (h : scratchPattern.fullmatch s = true) : looseRun.fullmatch s = true := by
  have hlen : s.length = 36 := Pattern.fullmatch_length h
  refine fullmatch_times hlen fun c hc => ?_
  refine Pattern.fullmatch_all (Q := fun c => (isHex c || c == 45) = true) h ?_ c hc
  intro cls hcls a ha
  have hdash : lit "-" = [45] := by decide
  have hcases : cls = isHex ∨ cls = (· == 45) := by
    simp only [scratchPattern, uuidPattern, Pattern.times, Pattern.text, hdash, List.mem_append, List.mem_cons,
      List.mem_replicate, List.map_cons, List.map_nil, List.not_mem_nil] at hcls
    tauto
  rcases hcases with rfl | rfl
  · simp [ha]
  · simp [ha]

theorem safeSegment_of_fullmatch {p : Pattern} (hne : p ≠ [])
    (hp : ∀ cls ∈ p, ∀ a, cls a = true → isSegmentChar a = true) (h : p.fullmatch s = true) : SafeSegment s := by
  refine ⟨?_, Pattern.fullmatch_all h hp⟩
  rintro rfl
  exact hne (List.length_eq_zero_iff.mp (Pattern.fullmatch_length h).symm)

/-- A fixed text that is a segment. -/
def isSegment (s : String) : Bool := !(lit s).isEmpty && (lit s).all isSegmentChar

theorem safeSegment_of_isSegment {s : String} (h : isSegment s = true) : SafeSegment (lit s) := by
  obtain ⟨hne, hall⟩ := Bool.and_eq_true_iff.mp h
  exact ⟨by simpa using hne, List.all_eq_true.mp hall⟩

theorem isSegment_names : (∀ name ∈ streamNames, isSegment name = true) ∧
    (∀ scale ∈ scaleNames, isSegment scale = true) ∧ isSegment "gh_events_file" = true ∧
    isSegment "streaming_test" = true := by decide

theorem Rooted.safe (h : Rooted looseRun segs) : ∀ s ∈ segs, SafeSegment s := by
  obtain ⟨hnames, hscales, hgeneration, hscratch⟩ := isSegment_names
  cases h with
  | stream name known =>
      simp only [List.forall_mem_singleton]
      exact safeSegment_of_isSegment (hnames name known)
  | generation scale known publication manifest hex hex' =>
      simp only [List.forall_mem_cons, List.not_mem_nil, false_implies, implies_true, and_true]
      exact ⟨safeSegment_of_isSegment hgeneration, safeSegment_of_isSegment (hscales scale known),
        safeSegment_of_fullmatch (by simp [Pattern.times]) isSegmentChar_times hex,
        safeSegment_of_fullmatch (by simp [Pattern.times]) isSegmentChar_times hex'⟩
  | scratch id hid =>
      simp only [List.forall_mem_cons, List.not_mem_nil, false_implies, implies_true, and_true]
      exact ⟨safeSegment_of_isSegment hscratch,
        safeSegment_of_fullmatch (by simp [looseRun, Pattern.times]) isSegmentChar_looseRun hid⟩

theorem segments_of_safe (h : ∀ s ∈ segs, SafeSegment s) : Segments segs :=
  fun s hs hslash => (isSegmentChar_ne ((h s hs).2 47 hslash)).1 rfl

theorem Rooted.mono (h : Rooted scratchPattern segs) : Rooted looseRun segs := by
  cases h with
  | stream name known => exact .stream name known
  | generation scale known publication manifest hex hex' => exact .generation scale known _ _ hex hex'
  | scratch id hid => exact .scratch id (looseRun_of_scratchPattern hid)

theorem Rooted.ne_nil (h : Rooted run segs) : segs ≠ [] := by cases h <;> exact List.cons_ne_nil _ _

/-- No path of these shapes lies under another. -/
theorem Rooted.eq_of_prefix (h : Rooted run segs) (h' : Rooted run segs') (hunder : segs <+: segs') : segs = segs' := by
  have hnames : ∀ name ∈ streamNames, lit name ≠ lit "gh_events_file" ∧ lit name ≠ lit "streaming_test" := by
    decide
  have hroots : lit "gh_events_file" ≠ lit "streaming_test" := by decide
  cases h with
  | stream name known =>
      cases h' with
      | stream name' known' => exact hunder.eq_of_length rfl
      | generation => exact absurd (List.cons_prefix_cons.mp hunder).1 (hnames name known).1
      | scratch => exact absurd (List.cons_prefix_cons.mp hunder).1 (hnames name known).2
  | generation =>
      cases h' with
      | stream name' known' => exact absurd (List.cons_prefix_cons.mp hunder).1.symm (hnames name' known').1
      | generation => exact hunder.eq_of_length rfl
      | scratch => exact absurd (List.cons_prefix_cons.mp hunder).1 hroots
  | scratch =>
      cases h' with
      | stream name' known' => exact absurd (List.cons_prefix_cons.mp hunder).1.symm (hnames name' known').2
      | generation => exact absurd (List.cons_prefix_cons.mp hunder).1.symm hroots
      | scratch => exact hunder.eq_of_length rfl

/-- The control records are under none of them, and none of them under the control records. -/
theorem Rooted.not_control (h : Rooted run segs) :
    ¬ [lit "_retention"] <+: segs ∧ ¬ segs <+: [lit "_retention"] := by
  have hnames : ∀ name ∈ streamNames, lit name ≠ lit "_retention" := by decide
  have hgeneration : lit "gh_events_file" ≠ lit "_retention" := by decide
  have hscratch : lit "streaming_test" ≠ lit "_retention" := by decide
  cases h with
  | stream name known =>
      exact ⟨fun hc => hnames name known (List.cons_prefix_cons.mp hc).1.symm,
        fun hc => hnames name known (List.cons_prefix_cons.mp hc).1⟩
  | generation =>
      exact ⟨fun hc => hgeneration (List.cons_prefix_cons.mp hc).1.symm,
        fun hc => hgeneration (List.cons_prefix_cons.mp hc).1⟩
  | scratch =>
      exact ⟨fun hc => hscratch (List.cons_prefix_cons.mp hc).1.symm,
        fun hc => hscratch (List.cons_prefix_cons.mp hc).1⟩

/-! ### The check of a concrete prefix -/

theorem mem_of_contains {needle : Str} (h : contains needle s = true) (hc : c ∈ needle) : c ∈ s := by
  induction s with
  | nil => simp [List.isEmpty_iff.mp (show needle.isEmpty = true from h)] at hc
  | cons a s ih =>
      rcases Bool.or_eq_true_iff.mp (show (needle.isPrefixOf (a :: s) || contains needle s) = true from h) with h | h
      · exact (List.isPrefixOf_iff_prefix.mp h).subset hc
      · exact List.mem_cons_of_mem _ (ih h)

theorem contains_slashes_append {t : Str} (h : 47 ∉ s) : contains (lit "//") (s ++ t) = contains (lit "//") t := by
  have hlit : lit "//" = [47, 47] := by decide
  induction s with
  | nil => rfl
  | cons a s ih =>
      have ha : (47 == a) = false := beq_eq_false_iff_ne.mpr fun hc => h (by simp [← hc])
      rw [List.cons_append, contains, ih fun hc => h (List.mem_cons_of_mem _ hc), hlit]
      simp [List.isPrefixOf, ha]

theorem contains_slashes_pathText (h : ∀ s ∈ segs, SafeSegment s) : contains (lit "//") (pathText segs) = false := by
  have hlit : lit "//" = [47, 47] := by decide
  induction segs with
  | nil => rfl
  | cons s rest ih =>
      rw [List.forall_mem_cons] at h
      have hslash : 47 ∉ s := fun hc => (isSegmentChar_ne (h.1.2 47 hc)).1 rfl
      rw [pathText_cons, contains_slashes_append hslash, contains, ih h.2, Bool.or_false, hlit]
      -- a further segment does not begin with a slash
      cases rest with
      | nil => rfl
      | cons t rest =>
          rw [List.forall_mem_cons] at h
          cases t with
          | nil => exact absurd rfl h.2.1.1
          | cons a t =>
              have ha : (47 == a) = false := beq_eq_false_iff_ne.mpr fun hc =>
                (isSegmentChar_ne (h.2.1.2 a List.mem_cons_self)).1 hc.symm
              simp [List.isPrefixOf, ha]

/-- **A path of safe segments is a concrete prefix**, unless it is a control path. -/
theorem validateConcretePrefix_path (hne : segs ≠ []) (h : ∀ s ∈ segs, SafeSegment s)
    (hcontrol : ¬ [lit "_retention"] <+: segs) : validateConcretePrefix (pathText segs) "_retention/" = .ok () := by
  have hslashes := segments_of_safe h
  have hlast := pathText_eq_intercalate hne
  have hmem : ∀ c ∈ pathText segs, c ≠ 46 ∧ c ≠ 58 ∧ c ≠ 92 ∧ c < 128 := by
    intro c hc
    rcases mem_pathText hc with rfl | ⟨s, hs, hc⟩
    · decide
    · exact (isSegmentChar_ne ((h s hs).2 c hc)).2
  have hempty : (pathText segs).isEmpty = false := by
    rw [hlast]
    simp
  have hends : (lit "/").isSuffixOf (pathText segs) = true := by
    rw [List.isSuffixOf_iff_suffix, hlast]
    exact List.suffix_append _ _
  have hroot : (lit "/").isPrefixOf (pathText segs) = false := by
    rw [Bool.eq_false_iff]
    intro hc
    have hpath : pathText [[]] <+: pathText segs := List.isPrefixOf_iff_prefix.mp hc
    have hunder := (starts_of_pathText (by simp [Segments]) hslashes).mp hpath
    exact (h [] (hunder.subset (by simp))).1 rfl
  have hretention : (lit "_retention/").isPrefixOf (pathText segs) = false := by
    rw [Bool.eq_false_iff]
    intro hc
    have hlit : lit "_retention/" = pathText [lit "_retention"] := by decide
    have hsegs : Segments [lit "_retention"] := by unfold Segments; decide
    rw [List.isPrefixOf_iff_prefix, hlit] at hc
    exact hcontrol ((starts_of_pathText hsegs hslashes).mp hc)
  have hscheme : contains (lit "://") (pathText segs) = false := by
    rw [Bool.eq_false_iff]
    exact fun hc => (hmem 58 (mem_of_contains hc (by decide))).2.1 rfl
  have hback : contains (lit "\\") (pathText segs) = false := by
    rw [Bool.eq_false_iff]
    exact fun hc => (hmem 92 (mem_of_contains hc (by decide))).2.2.1 rfl
  have hparts : ((pathText segs).dropLast.splitOn 47).any (fun part => part ∈ [[], lit ".", lit ".."]) = false := by
    rw [splitOn_pathText hne hslashes, List.any_eq_false]
    intro part hpart hbad
    have hcases : part = [] ∨ part = lit "." ∨ part = lit ".." := by simpa using hbad
    have hdot : ∀ t : Str, 46 ∈ t → part ≠ t := by
      rintro t ht rfl
      exact (isSegmentChar_ne ((h part hpart).2 46 ht)).2.1 rfl
    rcases hcases with hc | hc | hc
    · exact (h part hpart).1 hc
    · exact hdot _ (by decide) hc
    · exact hdot _ (by decide) hc
  have hascii : isAscii (pathText segs) = true := by
    rw [isAscii, List.all_eq_true]
    exact fun c hc => decide_eq_true (hmem c hc).2.2.2
  unfold validateConcretePrefix
  rw [hempty, hends, hroot, hretention, hscheme, hback, contains_slashes_pathText h, hparts, hascii]
  rfl

/-! ### What the expressions read -/

/-- The expression for a path of a run. -/
def runPattern (run : Pattern) : Pattern :=
  Pattern.text (lit "streaming_test/") ++ run ++ Pattern.text (lit "/")

theorem runPattern_fullmatch : (runPattern run).fullmatch s = true ↔
    ∃ id, s = pathText [lit "streaming_test", id] ∧ run.fullmatch id = true := by
  have hroot : lit "streaming_test/" = lit "streaming_test" ++ [47] := by decide
  have hslash : lit "/" = [47] := by decide
  simp only [runPattern, fullmatch_append_iff, fullmatch_text_iff, hroot, hslash]
  constructor
  · rintro ⟨_, _, rfl, ⟨_, id, rfl, rfl, hid⟩, rfl⟩
    exact ⟨id, by simp, hid⟩
  · rintro ⟨id, rfl, hid⟩
    exact ⟨_, _, by simp, ⟨_, id, rfl, rfl, hid⟩, rfl⟩

theorem generationPattern_fullmatch {scale : String} : (generationPattern scale).fullmatch s = true ↔
    ∃ publication manifest, s = pathText [lit "gh_events_file", lit scale, publication, manifest] ∧
      (Pattern.times 32 isHex).fullmatch publication = true ∧
      (Pattern.times 64 isHex).fullmatch manifest = true := by
  have hroot : lit "gh_events_file/" = lit "gh_events_file" ++ [47] := by decide
  have hslash : lit "/" = [47] := by decide
  simp only [generationPattern, fullmatch_append_iff, fullmatch_text_iff, hroot, hslash]
  constructor
  · rintro ⟨_, _, rfl, ⟨_, b, rfl, ⟨_, _, rfl, ⟨_, a, rfl, ⟨_, _, rfl, ⟨_, _, rfl, rfl, rfl⟩, rfl⟩, ha⟩, rfl⟩, hb⟩, rfl⟩
    exact ⟨a, b, by simp, ha, hb⟩
  · rintro ⟨a, b, rfl, ha, hb⟩
    exact ⟨_, _, by simp, ⟨_, b, rfl, ⟨_, _, rfl, ⟨_, a, rfl, ⟨_, _, rfl, ⟨_, _, rfl, rfl, rfl⟩, rfl⟩, ha⟩, rfl⟩, hb⟩, rfl⟩

/-- The entries of an accepted registry, by what they read. -/
inductive EntryShape (entry : CheckpointEntry) : Prop
  | stream (name : String) (known : name ∈ streamNames) (plain : entry.keyPrefix ≠ scratchTemplate)
      (plain' : entry.keyPrefix ≠ generationTemplate) (scales : entry.scales = none)
      (path : lit entry.keyPrefix = pathText [lit name])
  | generation (template : entry.keyPrefix = generationTemplate) (scales : entry.scales = some scaleNames)
  | scratch (template : entry.keyPrefix = scratchTemplate)

theorem entryShape {entry : CheckpointEntry} (h : entry.WellFormed) : EntryShape entry := by
  have hpaths : ∀ name ∈ streamNames, lit (name ++ "/") = pathText [lit name] ∧ name ++ "/" ≠ scratchTemplate ∧
      name ++ "/" ≠ generationTemplate := by decide
  have hcases : (entry.keyPrefix ∈ streamNames.map (· ++ "/") ∧ entry.scales = none) ∨
      (entry.keyPrefix = generationTemplate ∧ entry.scales = some scaleNames) ∨ entry.keyPrefix = scratchTemplate := by
    have hall : ∀ e ∈ expectedEntries, (e.keyPrefix ∈ streamNames.map (· ++ "/") ∧ e.scales = none) ∨
        (e.keyPrefix = generationTemplate ∧ e.scales = some scaleNames) ∨ e.keyPrefix = scratchTemplate := by
      decide
    exact hall _ h.expected
  rcases hcases with ⟨hname, hscales⟩ | ⟨htemplate, hscales⟩ | htemplate
  · obtain ⟨name, hknown, hname⟩ := List.mem_map.mp hname
    obtain ⟨hpath, hplain, hplain'⟩ := hpaths name hknown
    rw [hname] at hpath hplain hplain'
    exact .stream name hknown hplain hplain' hscales hpath
  · exact .generation htemplate hscales
  · exact .scratch htemplate

variable {entry : CheckpointEntry} {key p q : Str}

theorem matchScratch_isSome : (matchScratch s).isSome = true ↔ (runPattern scratchPattern).fullmatch s = true := by
  have hhead : (runPattern scratchPattern).fullmatch s = true → (lit "streaming_test/").isPrefixOf s = true := by
    intro h
    obtain ⟨id, rfl, -⟩ := runPattern_fullmatch.mp h
    have hlit : lit "streaming_test/" = pathText [lit "streaming_test"] := by decide
    rw [List.isPrefixOf_iff_prefix, hlit]
    exact ⟨pathText [id], by simp⟩
  show (if (lit "streaming_test/").isPrefixOf s then
    if (runPattern scratchPattern).fullmatch s then some _ else none else none : Option _).isSome = true ↔ _
  constructor
  · intro h
    split at h
    · split at h
      · assumption
      · cases h
    · cases h
  · intro h
    rw [if_pos (hhead h), if_pos h]
    rfl

/-- **What one entry of the policy reads.** -/
theorem rooted_of_match? (hentry : entry.WellFormed) {matched : MatchedCheckpoint}
    (h : entry.match? p = some matched) : ∃ segs, Rooted scratchPattern segs ∧ p = pathText segs := by
  unfold CheckpointEntry.match? at h
  cases entryShape hentry with
  | stream name known plain plain' scales path =>
      rw [if_neg plain, scales] at h
      simp only [Option.ite_none_right_eq_some] at h
      exact ⟨_, .stream name known, h.1.trans path⟩
  | generation template scales =>
      rw [if_neg (by rw [template]; decide), scales] at h
      simp only at h
      cases hread : matchGeneration p with
      | none => simp [hread] at h
      | some g =>
          obtain ⟨scale, hfind, -⟩ := Option.map_eq_some_iff.mp hread
          have hscale := List.find?_some hfind
          obtain ⟨a, b, hpath, ha, hb⟩ := generationPattern_fullmatch.mp hscale
          exact ⟨_, .generation scale (List.mem_of_find?_eq_some hfind) a b ha hb, hpath⟩
  | scratch template =>
      rw [if_pos template] at h
      obtain ⟨g, hread, -⟩ := Option.map_eq_some_iff.mp h
      obtain ⟨id, hpath, hid⟩ := runPattern_fullmatch.mp (matchScratch_isSome.mp (Option.isSome_of_eq_some hread))
      exact ⟨_, .scratch id hid, hpath⟩

/-- **What one entry of the gateway reads** of a key. -/
theorem rooted_of_entryPrefix (hentry : entry.WellFormed) (h : entryPrefix entry key = some p) :
    p <+: key ∧ ∃ segs, Rooted looseRun segs ∧ p = pathText segs := by
  unfold entryPrefix at h
  cases entryShape hentry with
  | stream name known plain plain' scales path =>
      rw [if_neg plain, if_neg plain'] at h
      simp only [Option.ite_none_right_eq_some, Option.some.injEq] at h
      obtain ⟨hunder, rfl⟩ := h
      exact ⟨List.isPrefixOf_iff_prefix.mp hunder, _, .stream name known, path⟩
  | generation template scales =>
      rw [if_neg (by rw [template]; decide), if_pos template] at h
      obtain ⟨scale, hfind, rfl⟩ := Option.map_eq_some_iff.mp h
      have hscale := List.find?_some hfind
      obtain ⟨a, b, hpath, ha, hb⟩ := generationPattern_fullmatch.mp hscale
      exact ⟨List.take_prefix _ _, _, .generation scale (List.mem_of_find?_eq_some hfind) a b ha hb, hpath⟩
  | scratch template =>
      rw [if_pos template] at h
      simp only [Option.ite_none_right_eq_some, Option.some.injEq] at h
      obtain ⟨hread, rfl⟩ := h
      obtain ⟨id, hpath, hid⟩ := runPattern_fullmatch.mp (show (runPattern looseRun).fullmatch _ = true from hread)
      exact ⟨List.take_prefix _ _, _, .scratch id hid, hpath⟩

/-- A pattern read at the start of a key, when a prefix of the key matches it. -/
theorem fullmatch_take {pattern : Pattern} (h : pattern.fullmatch p = true) (hunder : p <+: key) :
    pattern.fullmatch (key.take pattern.length) = true := by
  rw [← Pattern.fullmatch_length h, ← List.prefix_iff_eq_take.mp hunder]
  exact h

end

/-! ### Owned prefixes -/

/-- A prefix that a checkpoint owns. -/
def Owned (p : Str) : Prop := ∃ segs, Rooted scratchPattern segs ∧ p = pathText segs

section
variable {policy : CheckpointPolicy} {p q key : Str} {matched : MatchedCheckpoint}

theorem Owned.eq_of_prefix (hp : Owned p) (hq : Owned q) (h : p <+: q) : p = q := by
  obtain ⟨segs, hsegs, rfl⟩ := hp
  obtain ⟨segs', hsegs', rfl⟩ := hq
  have hunder := (starts_of_pathText (segments_of_safe hsegs.mono.safe) (segments_of_safe hsegs'.mono.safe)).mp h
  rw [hsegs.eq_of_prefix hsegs' hunder]

theorem Owned.not_control (hp : Owned p) : ¬ lit "_retention/" <+: p ∧ ¬ p <+: lit "_retention/" := by
  obtain ⟨segs, hsegs, rfl⟩ := hp
  have hlit : lit "_retention/" = pathText [lit "_retention"] := by decide
  have hcontrol : Segments [lit "_retention"] := by unfold Segments; decide
  have hslashes := segments_of_safe hsegs.mono.safe
  rw [hlit, starts_of_pathText hcontrol hslashes, starts_of_pathText hslashes hcontrol]
  exact hsegs.not_control

/-- Whatever the gateway reads of a key is the owned prefix of the key, if there is one. -/
theorem entryPrefix_eq {entry : CheckpointEntry} (hentry : entry.WellFormed) (hp : Owned p) (hunder : p <+: key)
    (h : entryPrefix entry key = some q) : q = p := by
  obtain ⟨segs, hsegs, rfl⟩ := hp
  obtain ⟨hunder', segs', hsegs', rfl⟩ := rooted_of_entryPrefix hentry h
  have hloose := hsegs.mono
  have hslashes := segments_of_safe hloose.safe
  have hslashes' := segments_of_safe hsegs'.safe
  rcases List.prefix_or_prefix_of_prefix hunder hunder' with hle | hle
  · rw [hloose.eq_of_prefix hsegs' ((starts_of_pathText hslashes hslashes').mp hle)]
  · rw [hsegs'.eq_of_prefix hloose ((starts_of_pathText hslashes' hslashes).mp hle)]

theorem matchPrefix_owned (hpolicy : policy.WellFormed) (h : policy.matchPrefix p = .ok matched) : Owned p := by
  unfold CheckpointPolicy.matchPrefix at h
  split at h
  · cases h
  · split at h
    · rename_i m hm
      obtain ⟨entry, hentry, hread⟩ := List.exists_of_findSome?_eq_some hm
      exact rooted_of_match? (hpolicy.entry entry hentry) hread
    · cases h

/-- Every entry of the registry is there. -/
theorem exists_entry (hpolicy : policy.WellFormed) {expected : ExpectedEntry} (h : expected ∈ expectedEntries) :
    ∃ entry ∈ policy.entries, entry.toExpectedEntry = expected := by
  rw [← hpolicy.inventory] at h
  exact List.mem_map.mp h

/-- One of the entries of the policy reads an owned prefix. -/
theorem exists_match? (hpolicy : policy.WellFormed) (hp : Owned p) :
    ∃ entry ∈ policy.entries, (entry.match? p).isSome = true := by
  obtain ⟨segs, hsegs, hpath⟩ := hp
  cases hsegs with
  | stream name known =>
      have hexpected : ∀ name ∈ streamNames, ∃ e ∈ expectedEntries, lit e.keyPrefix = pathText [lit name] ∧
          e.keyPrefix ≠ scratchTemplate ∧ e.scales = none := by decide
      obtain ⟨expected, hmem, htext, hplain, hscales⟩ := hexpected name known
      obtain ⟨entry, hentry, rfl⟩ := exists_entry hpolicy hmem
      refine ⟨entry, hentry, ?_⟩
      unfold CheckpointEntry.match?
      rw [if_neg hplain, hscales]
      exact Option.isSome_of_eq_some (if_pos (hpath.trans htext.symm))
  | generation scale known publication manifest hex hex' =>
      obtain ⟨entry, hentry, hexpected⟩ := exists_entry hpolicy (show streamingGhArchiveFile ∈ expectedEntries by decide)
      have htemplate : entry.keyPrefix = generationTemplate := by rw [hexpected]; rfl
      have hscales : entry.scales = some scaleNames := by rw [hexpected]; rfl
      have hread := generationPattern_fullmatch.mpr ⟨publication, manifest, hpath, hex, hex'⟩
      have hsome : (scaleNames.find? fun scale => (generationPattern scale).fullmatch p).isSome = true := by
        rw [List.find?_isSome]
        exact ⟨scale, known, hread⟩
      obtain ⟨found, hfind⟩ := Option.isSome_iff_exists.mp hsome
      have hmem := List.mem_of_find?_eq_some hfind
      refine ⟨entry, hentry, ?_⟩
      unfold CheckpointEntry.match? matchGeneration
      rw [if_neg (by rw [htemplate]; decide), hscales, hfind, Option.map_some]
      exact Option.isSome_of_eq_some (if_pos (List.any_eq_true.mpr ⟨found, hmem, by simp⟩))
  | scratch id hid =>
      obtain ⟨entry, hentry, hexpected⟩ := exists_entry hpolicy (show goLiveStreamingTest ∈ expectedEntries by decide)
      have htemplate : entry.keyPrefix = scratchTemplate := by rw [hexpected]; rfl
      refine ⟨entry, hentry, ?_⟩
      unfold CheckpointEntry.match?
      rw [if_pos htemplate, Option.isSome_map]
      exact matchScratch_isSome.mpr (runPattern_fullmatch.mpr ⟨id, hpath, hid⟩)

/-- **`match_prefix` accepts the owned prefixes**, and nothing else. -/
theorem matchPrefix_iff (hpolicy : policy.WellFormed) : (∃ matched, policy.matchPrefix p = .ok matched) ↔ Owned p := by
  constructor
  · rintro ⟨matched, h⟩
    exact matchPrefix_owned hpolicy h
  · intro hp
    have hconcrete : validateConcretePrefix p policy.controlPrefix = .ok () := by
      obtain ⟨segs, hsegs, rfl⟩ := hp
      rw [hpolicy.controlPrefix]
      exact validateConcretePrefix_path hsegs.ne_nil hsegs.mono.safe hsegs.not_control.1
    obtain ⟨entry, hentry, hsome⟩ := exists_match? hpolicy hp
    have hfind : (policy.entries.findSome? fun entry => entry.match? p).isSome = true :=
      List.findSome?_isSome_iff.mpr ⟨entry, hentry, hsome⟩
    obtain ⟨matched, hmatched⟩ := Option.isSome_iff_exists.mp hfind
    refine ⟨matched, ?_⟩
    unfold CheckpointPolicy.matchPrefix
    rw [hconcrete, hmatched]

/-- One of the entries of the gateway reads a key under an owned prefix. -/
theorem exists_entryPrefix (hpolicy : policy.WellFormed) (hp : Owned p) (hunder : p <+: key) :
    ∃ entry ∈ policy.entries, (entryPrefix entry key).isSome = true := by
  obtain ⟨segs, hsegs, hpath⟩ := hp
  cases hsegs with
  | stream name known =>
      have hexpected : ∀ name ∈ streamNames, ∃ e ∈ expectedEntries, lit e.keyPrefix = pathText [lit name] ∧
          e.keyPrefix ≠ scratchTemplate ∧ e.keyPrefix ≠ generationTemplate := by decide
      obtain ⟨expected, hmem, htext, hplain, hplain'⟩ := hexpected name known
      obtain ⟨entry, hentry, rfl⟩ := exists_entry hpolicy hmem
      refine ⟨entry, hentry, ?_⟩
      unfold entryPrefix
      rw [if_neg hplain, if_neg hplain', if_pos]
      · rfl
      · rw [List.isPrefixOf_iff_prefix, htext, ← hpath]
        exact hunder
  | generation scale known publication manifest hex hex' =>
      obtain ⟨entry, hentry, hexpected⟩ := exists_entry hpolicy (show streamingGhArchiveFile ∈ expectedEntries by decide)
      have htemplate : entry.keyPrefix = generationTemplate := by rw [hexpected]; rfl
      refine ⟨entry, hentry, ?_⟩
      unfold entryPrefix
      rw [if_neg (by rw [htemplate]; decide), if_pos htemplate, Option.isSome_map, List.find?_isSome]
      exact ⟨scale, known, fullmatch_take (generationPattern_fullmatch.mpr ⟨_, _, hpath, hex, hex'⟩) hunder⟩
  | scratch id hid =>
      obtain ⟨entry, hentry, hexpected⟩ := exists_entry hpolicy (show goLiveStreamingTest ∈ expectedEntries by decide)
      have htemplate : entry.keyPrefix = scratchTemplate := by rw [hexpected]; rfl
      refine ⟨entry, hentry, ?_⟩
      have hread : (runPattern looseRun).fullmatch (key.take (runPattern looseRun).length) = true :=
        fullmatch_take (runPattern_fullmatch.mpr ⟨id, hpath, looseRun_of_scratchPattern hid⟩) hunder
      unfold entryPrefix
      rw [if_pos htemplate]
      exact Option.isSome_of_eq_some (if_pos hread)

/-- A search that can find only one thing finds it. -/
theorem findSome?_eq {α β : Type} {f : α → Option β} {xs : List α} {b : β} (hone : ∀ x ∈ xs, ∀ c, f x = some c → c = b)
    (hex : ∃ x ∈ xs, (f x).isSome = true) : xs.findSome? f = some b := by
  obtain ⟨x, hx, hsome⟩ := hex
  cases hfind : xs.findSome? f with
  | none =>
      rw [List.findSome?_eq_none_iff.mp hfind x hx] at hsome
      cases hsome
  | some c =>
      obtain ⟨y, hy, hc⟩ := List.exists_of_findSome?_eq_some hfind
      rw [hone y hy c hc]

/-- **The two recognisers agree.** -/
theorem validateDataKey_iff (hpolicy : policy.WellFormed) : validateDataKey policy key = .ok p ↔
    (∃ matched, policy.matchPrefix p = .ok matched) ∧ p <+: key ∧ key ≠ p := by
  unfold validateDataKey
  constructor
  · intro h
    split at h
    · rename_i keyPrefix hfind
      split at h
      · rename_i matched hmatched
        obtain rfl := Except.ok.inj h
        obtain ⟨entry, hentry, hread⟩ := List.exists_of_findSome?_eq_some hfind
        obtain ⟨hread, hne⟩ := Option.filter_eq_some_iff.mp hread
        refine ⟨⟨matched, hmatched⟩, (rooted_of_entryPrefix (hpolicy.entry entry hentry) hread).1, ?_⟩
        rintro rfl
        simp at hne
      · cases h
    · cases h
  · rintro ⟨⟨matched, hmatched⟩, hunder, hne⟩
    have hp := matchPrefix_owned hpolicy hmatched
    have hfind : policy.entries.findSome? (fun entry => (entryPrefix entry key).filter fun p => p != key) = some p := by
      have hone : ∀ entry ∈ policy.entries, ∀ q, entryPrefix entry key = some q → q = p :=
        fun entry hentry q => entryPrefix_eq (hpolicy.entry entry hentry) hp hunder
      refine findSome?_eq (fun entry hentry q hq => ?_) ?_
      · exact hone entry hentry q (Option.filter_eq_some_iff.mp hq).1
      · obtain ⟨entry, hentry, hsome⟩ := exists_entryPrefix hpolicy hp hunder
        obtain ⟨q, hq⟩ := Option.isSome_iff_exists.mp hsome
        obtain rfl := hone entry hentry q hq
        refine ⟨entry, hentry, Option.isSome_of_eq_some (Option.filter_eq_some_iff.mpr ⟨hq, ?_⟩)⟩
        simpa using hne.symm
    rw [hfind]
    simp only [hmatched]

/-- What an inventory lists is under a prefix that the policy accepts. -/
theorem inventory_under {d : Deadline} {l : Log} {records : List ObjectRecord}
    (h : Plays (inventory policy d p) l (.ok records)) :
    (∃ matched, policy.matchPrefix p = .ok matched) ∧ ∀ r ∈ records, p <+: r.key ∧ r.key ≠ p := by
  refine ⟨?_, ((inventory_plays h).2.1 records rfl).under⟩
  obtain ⟨e, -, -, hr⟩ | ⟨u, hmatched, -⟩ := plays_lift_bind.mp h
  · cases hr
  · split at hmatched
    · rename_i matched hread
      exact ⟨matched, hread⟩
    · cases hmatched

end

/-- **Prefixes are owned without ambiguity**, and both recognisers say the same of every key; so
what an inventory lists belongs to its prefix, and a batch of it to no other. -/
theorem prefixes_unambiguous (load : Str → Except PolicyFailure Yaml) (text : Str) (policy : CheckpointPolicy)
    (hpolicy : parsePolicy load text = .ok policy) :
    (∀ p q matched matched', policy.matchPrefix p = .ok matched → policy.matchPrefix q = .ok matched' → p ≠ q →
      ¬ p <+: q ∧ ¬ q <+: p) ∧
    (∀ p matched, policy.matchPrefix p = .ok matched → ¬ lit "_retention/" <+: p ∧ ¬ p <+: lit "_retention/") ∧
    (∀ key p, validateDataKey policy key = .ok p ↔
      (∃ matched, policy.matchPrefix p = .ok matched) ∧ p <+: key ∧ key ≠ p) ∧
    ∀ d p l records, Plays (inventory policy d p) l (.ok records) →
      (∀ r ∈ records, validateDataKey policy r.key = .ok p) ∧
      ∀ batch ⊆ records, checkAll (fun r => validateDataKey policy r.key) batch = .ok (batch.map fun _ => p) := by
  have hwf := parsePolicy_wellFormed hpolicy
  refine ⟨?_, fun p matched h => (matchPrefix_owned hwf h).not_control, fun key p => validateDataKey_iff hwf, ?_⟩
  · intro p q matched matched' hp hq hne
    have hp := matchPrefix_owned hwf hp
    have hq := matchPrefix_owned hwf hq
    exact ⟨fun h => hne (hp.eq_of_prefix hq h), fun h => hne (hq.eq_of_prefix hp h).symm⟩
  · intro d p l records h
    obtain ⟨hmatched, hunder⟩ := inventory_under h
    have hkeys : ∀ r ∈ records, validateDataKey policy r.key = .ok p :=
      fun r hr => (validateDataKey_iff hwf).mpr ⟨hmatched, hunder r hr⟩
    refine ⟨hkeys, fun batch hbatch => ?_⟩
    exact checkAll_eq_map fun r hr => hkeys r (hbatch hr)

/-- A key of the shipped registry, and the run next to it. -/
theorem prefixes_unambiguous_registry : validateDataKey registry (lit "events/offsets/0") = .ok (lit "events/") ∧
    ¬ lit "events/" <+: lit "event_windows/" := by
  obtain ⟨hdistinct, -, hkeys, -⟩ := prefixes_unambiguous loadJson registryText registry registryText_parses
  have hevents : registry.matchPrefix (lit "events/") = .ok ⟨"streaming-events-v1", lit "events/", []⟩ := by
    decide
  have hwindows : registry.matchPrefix (lit "event_windows/") =
      .ok ⟨"streaming-event-windows-v1", lit "event_windows/", []⟩ := by decide
  exact ⟨(hkeys _ _).mpr ⟨⟨_, hevents⟩, by decide, by decide⟩, (hdistinct _ _ _ _ hevents hwindows (by decide)).1⟩

end Checkpoints
