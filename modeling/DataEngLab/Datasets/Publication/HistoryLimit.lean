/-
How long a history may be.

The walk has one round for each manifest and needs one more to see that no manifest is left.
So with a limit of a thousand rounds it returns every chain of fewer than a thousand
manifests and refuses a chain of exactly a thousand, which its own message allows:
`manifestHistory_complete_iff`.

The chain of the counterexample is built for any digest function that tells its manifests
apart; a thousand values of SHA-256 are not computed here, and a function that numbers the
manifests by their second takes its place.
-/
import DataEngLab.Datasets.Publication.History
import DataEngLab.Lib.JsonWidth

namespace Publication

open Lib Registry
open Datasets (Location ControlSnapshot)

section
variable {W : Type} (digestOf : Bytes → Sha256Hex) (answer : W → (e : Call) → Answer e × W)
  (read : Location → Except Exn ControlSnapshot) (plan : ScalePlan) (current : ImmutableManifest) (bucket : Str)
  (budget : Option Nat) (w : W)

/-- What the call returns or raises. -/
def historyResult : Except Exn (List HistoricalManifest × Option Nat) :=
  (Proc.run answer (manifestHistory digestOf plan current bucket budget) w).1

/-- The chain before a manifest. -/
def ChainOf (history : List HistoricalManifest) : Prop :=
  Links digestOf read plan bucket current.previousKey current.previous history

/-- Every chain within the limit is returned, and anything else is refused. -/
structure HistoryComplete : Prop where
  complete : ∀ history, ChainOf digestOf read plan current bucket history → history.length ≤ maxHistoryDepth →
    Affords budget history.length →
      historyResult digestOf answer plan current bucket budget w = .ok (history, budget.map (· + history.length))
  refuses : (¬ ∃ history, ChainOf digestOf read plan current bucket history ∧ history.length ≤ maxHistoryDepth) →
    ∃ e, historyResult digestOf answer plan current bucket budget w = .error e

end

/-! ### Chains of any length -/

def sampleName : Component := ⟨[97], by decide⟩

def sampleDigest : Sha256Hex := ⟨List.replicate 64 48, by decide⟩

def samplePublication : Uuid4Hex := ⟨List.replicate 12 48 ++ 52 :: (List.replicate 3 48 ++ 56 :: List.replicate 15 48), by decide⟩

def sampleBucket : Str := lit "landing"

def samplePrefix : RelativeKey :=
  ⟨lit "raw/_generations/" ++ sampleDigest ++ lit "/" ++ samplePublication, by decide⟩

def sampleKey : RelativeKey := ⟨samplePrefix ++ lit "/" ++ sampleName, by decide⟩

def sampleObject : ManifestObject :=
  ⟨⟨[97], by decide⟩, sampleKey, ⟨1, by decide⟩, sampleDigest, sampleName, sampleDigest⟩

/-- A dataset whose objects lie under `raw`, at a scale. -/
def samplePlan : ScalePlan where
  dataset := ⟨sampleName, [], lit "csv", [], lit "raw", lit "http", false, [], none, [], [], none⟩
  scale := sampleName
  urls := []
  sf := none
  artifacts := []
  generatorScale := none

/-- The second of a manifest of the chain. -/
def nthInstant (n : Nat) : Instant := ⟨min n maxSecond, Nat.min_le_right n maxSecond⟩

def nthManifest (n : Nat) (previous : Option Sha256Hex) : ImmutableManifest where
  dataset := sampleName
  scale := sampleName
  rawRegistrySha256 := sampleDigest
  selectedPlanSha256 := sampleDigest
  planId := sampleDigest
  publicationId := samplePublication
  physicalPrefix := samplePrefix
  objects := [sampleObject]
  publishedAt := nthInstant n
  previous := previous
  selected := rfl
  nonempty := List.cons_ne_nil _ _
  distinctNames := List.nodup_singleton _

theorem nthManifest_selfConsistent (n : Nat) (previous : Option Sha256Hex) :
    SelfConsistent (nthManifest n previous) samplePlan where
  dataset := rfl
  physicalPrefix := by
    simp only [nthManifest, samplePrefix, samplePlan]
    decide
  keys := fun item hitem => by
    rw [List.mem_singleton.mp hitem]
    rfl

theorem encodable_sampleName : Encodable sampleName := by
  unfold Encodable
  decide

theorem encodable_samplePrefix : Encodable samplePrefix := by
  unfold Encodable
  decide

theorem sampleObject_writable : sampleObject.Writable where
  objectName := encodable_sampleName
  key := by
    unfold Encodable
    decide
  schemaId := encodable_sampleName
  sizeBytes := intFits_one

theorem nthManifest_writable (n : Nat) (previous : Option Sha256Hex) : (nthManifest n previous).Writable where
  dataset := encodable_sampleName
  scale := encodable_sampleName
  physicalPrefix := encodable_samplePrefix
  objects := fun item hitem => by
    rw [List.mem_singleton.mp hitem]
    exact sampleObject_writable

/-- The bytes of a manifest that can be written. -/
def bytesOf (m : ImmutableManifest) : Bytes := (canonicalJson m.toDocument).getD []

theorem toBytes_bytesOf (n : Nat) (previous : Option Sha256Hex) :
    (nthManifest n previous).toBytes = .ok (bytesOf (nthManifest n previous)) := by
  obtain ⟨body, hbody⟩ := (ImmutableManifest.writable_iff _).mpr (nthManifest_writable n previous)
  rw [hbody, bytesOf, ImmutableManifest.toBytes_eq_ok.mp hbody]
  rfl

theorem nullable_width_le {s : Option Str} {n : Nat} (h : ∀ t ∈ s, t.length ≤ n) : (nullable s).width ≤ 12 * n + 4 := by
  cases s with
  | none => exact Nat.le_add_left 4 _
  | some s =>
      have hs := h s rfl
      simp only [nullable, Option.elim_some, Json.width]
      omega

set_option maxRecDepth 8192 in
theorem sampleObject_width : (Json.arr [sampleObject.toDocument]).width ≤ 16000 := by decide

/-- No field of a manifest of the chain takes more than a few thousand characters. -/
theorem nthManifest_field_width (n : Nat) (previous : Option Sha256Hex) :
    ∀ f ∈ (nthManifest n previous).fields, 12 * (lit f.1).length + f.2.width + 4 ≤ 20000 := by
  have hdigest : ∀ digest : Sha256Hex, digest.1.length = 64 := fun digest => isSha256_length digest.2
  have hkey : (nullable (nthManifest n previous).previousKey).width ≤ 12 * 256 + 4 := by
    refine nullable_width_le fun t ht => ?_
    obtain ⟨digest, -, rfl⟩ := Option.map_eq_some_iff.mp ht
    have hlit : (lit "_data-eng-locks/manifests/").length = 26 ∧ (lit "/").length = 1 ∧ (lit ".json").length = 5 := by
      decide
    simp only [immutableManifestKey, List.length_append, hdigest, hlit]
    exact (by decide : 26 + 1 + 1 + 64 + 5 ≤ 256)
  have hprevious : (nullable ((nthManifest n previous).previous.map Subtype.val)).width ≤ 12 * 64 + 4 := by
    refine nullable_width_le fun t ht => ?_
    obtain ⟨digest, -, rfl⟩ := Option.map_eq_some_iff.mp ht
    exact Nat.le_of_eq (hdigest digest)
  have hpublished : (Json.str (formatInstant (nthInstant n))).width ≤ 16000 := by
    rw [Json.width, formatInstant, formatUtc_length]
    decide
  have hname : (Json.str sampleName).width ≤ 16000 := by decide
  have hprefix : (Json.str samplePrefix).width ≤ 16000 := by decide
  have hsample : (Json.str sampleDigest).width ≤ 16000 := by decide
  have hpublication : (Json.str samplePublication).width ≤ 16000 := by decide
  have hfield : ∀ {k : String} {v : Json}, (lit k).length ≤ 24 → v.width ≤ 16000 →
      12 * (lit k).length + v.width + 4 ≤ 20000 := by omega
  simp only [ImmutableManifest.fields, List.forall_mem_cons, List.not_mem_nil, false_implies, implies_true, and_true]
  exact ⟨hfield (by decide) hname, hfield (by decide) (by decide), hfield (by decide) sampleObject_width,
    hfield (by decide) hprefix, hfield (by decide) hsample, hfield (by decide) (hkey.trans (by decide)),
    hfield (by decide) (hprevious.trans (by decide)), hfield (by decide) hpublication, hfield (by decide) hpublished,
    hfield (by decide) hsample, hfield (by decide) hname, hfield (by decide) hsample⟩

/-- The bytes are short enough for a control object. -/
theorem bytesOf_length (n : Nat) (previous : Option Sha256Hex) :
    (bytesOf (nthManifest n previous)).length ≤ Datasets.maxControlBytes := by
  have hbytes := canonicalJson_length_le (ImmutableManifest.toBytes_eq_ok.mp (toBytes_bytesOf n previous))
  have hsum : ((members (nthManifest n previous).fields).map fun kv => 12 * kv.1.length + kv.2.width + 4).sum ≤
      (members (nthManifest n previous).fields).length • 20000 := by
    rw [← @List.length_map _ _ (members _) (fun kv : Str × Json => 12 * kv.1.length + kv.2.width + 4)]
    refine List.sum_le_card_nsmul _ _ fun x hx => ?_
    obtain ⟨kv, hkv, rfl⟩ := List.mem_map.mp hx
    obtain ⟨f, hf, rfl⟩ := List.mem_map.mp hkv
    exact nthManifest_field_width n previous f hf
  have hlength : (members (nthManifest n previous).fields).length = 12 := rfl
  rw [hlength, nsmul_eq_mul] at hsum
  rw [ImmutableManifest.toDocument, Json.width, widthMembers_eq] at hbytes
  have hmax : Datasets.maxControlBytes = 1048576 := rfl
  omega

section
variable (digestOf : Bytes → Sha256Hex)

/-- The manifests of a chain, oldest first. -/
def link : Nat → ImmutableManifest
  | 0 => nthManifest 0 none
  | n + 1 => nthManifest (n + 1) (some (digestOf (bytesOf (link n))))

def linkDigest (n : Nat) : Sha256Hex := digestOf (bytesOf (link digestOf n))

def linkLocation (n : Nat) : Location := ⟨sampleBucket, immutableManifestKey sampleName (linkDigest digestOf n)⟩

/-- A store that holds the first manifests of a chain. -/
def shelf (n : Nat) (loc : Location) : Option Bytes :=
  ((List.range n).find? fun i => loc = linkLocation digestOf i).map fun i => bytesOf (link digestOf i)

/-- The chain, newest first. -/
def links : Nat → List HistoricalManifest
  | 0 => []
  | n + 1 => ⟨immutableManifestKey sampleName (linkDigest digestOf n), linkDigest digestOf n, link digestOf n⟩ :: links n

/-- Every manifest of the chain is one of the samples. -/
theorem link_eq (n : Nat) : ∃ previous, link digestOf n = nthManifest n previous := by
  cases n with
  | zero => exact ⟨none, rfl⟩
  | succ n => exact ⟨_, rfl⟩

variable {digestOf : Bytes → Sha256Hex}

theorem immutableManifestKey_inj {dataset : Component} {digest digest' : Sha256Hex}
    (h : immutableManifestKey dataset digest = immutableManifestKey dataset digest') : digest = digest' := by
  simp only [immutableManifestKey, List.append_assoc, List.append_cancel_left_eq] at h
  exact Subtype.ext (List.append_cancel_right h)

/-- The store has every manifest under its digest, when the digests tell the manifests apart. -/
theorem shelf_linkLocation {n : Nat} (hinj : ∀ i < n, ∀ j < n, linkDigest digestOf i = linkDigest digestOf j → i = j)
    {i : Nat} (hi : i < n) : shelf digestOf n (linkLocation digestOf i) = some (bytesOf (link digestOf i)) := by
  have hfind : (List.range n).find? (fun j => linkLocation digestOf i = linkLocation digestOf j) = some i := by
    rcases hfound : (List.range n).find? (fun j => linkLocation digestOf i = linkLocation digestOf j) with _ | j
    · exact absurd (List.find?_eq_none.mp hfound i (List.mem_range.mpr hi)) (by simp)
    · have hj := List.mem_range.mp (List.mem_of_find?_eq_some hfound)
      have hsame : linkLocation digestOf i = linkLocation digestOf j := by simpa using List.find?_some hfound
      rw [hinj i hi j hj (immutableManifestKey_inj (Location.mk.inj hsame).2)]
  rw [shelf, hfind, Option.map_some]

/-- **The store holds a chain of every length.** -/
theorem links_chain {n : Nat} (hinj : ∀ i < n, ∀ j < n, linkDigest digestOf i = linkDigest digestOf j → i = j) :
    ∀ {k : Nat}, k ≤ n → ChainOf digestOf (served (shelf digestOf n)) samplePlan (link digestOf k) sampleBucket
      (links digestOf k) := by
  intro k
  induction k with
  | zero => exact fun _ => .nil
  | succ k ih =>
      intro hk
      obtain ⟨previous, hlink⟩ := link_eq digestOf k
      have hserved : served (shelf digestOf n) (linkLocation digestOf k) =
          .ok ⟨bytesOf (link digestOf k), lit "etag", dawn⟩ := by
        rw [served, shelf_linkLocation hinj hk]
        exact if_pos (hlink ▸ bytesOf_length k previous)
      have hread : manifestOfBytes (bytesOf (link digestOf k)) = .ok (link digestOf k) := by
        rw [hlink]
        exact (manifest_codec _ _).mp (toBytes_bytesOf k previous)
      exact @Links.cons _ _ _ _ sampleName _ _ _ _ rfl hserved rfl hread (hlink ▸ nthManifest_selfConsistent k previous)
        (ih (Nat.le_of_succ_le hk))

theorem links_length (k : Nat) : (links digestOf k).length = k := by
  induction k with
  | zero => rfl
  | succ k ih => rw [links, List.length_cons, ih]

end

/-- The text of a number of 64 digits. -/
def numbered (n : Nat) : Sha256Hex :=
  ⟨padDigits 64 n, fullmatch_times (padDigits_length 64 n) fun c hc => by
    have hdigit := padDigits_digits 64 n c hc
    simp only [isHex, hdigit, Bool.true_or]⟩

/-- A digest that tells the manifests of a chain apart by their second. -/
def ordinal (body : Bytes) : Sha256Hex :=
  match manifestOfBytes body with
  | .ok m => numbered m.publishedAt.second
  | .error _ => sampleDigest

theorem linkDigest_ordinal (n : Nat) (hn : n ≤ maxSecond) : linkDigest ordinal n = numbered n := by
  obtain ⟨previous, hlink⟩ := link_eq ordinal n
  have hread : manifestOfBytes (bytesOf (nthManifest n previous)) = .ok (nthManifest n previous) :=
    (manifest_codec _ _).mp (toBytes_bytesOf n previous)
  have hsecond : (nthManifest n previous).publishedAt.second = n := Nat.min_eq_left hn
  rw [linkDigest, hlink, ordinal, hread]
  simp only [hsecond]

theorem linkDigest_ordinal_inj {i j : Nat} (hi : i < maxHistoryDepth) (hj : j < maxHistoryDepth)
    (h : linkDigest ordinal i = linkDigest ordinal j) : i = j := by
  have hdepth : maxHistoryDepth ≤ maxSecond ∧ maxHistoryDepth ≤ 10 ^ 64 := by decide
  rw [linkDigest_ordinal i (by omega), linkDigest_ordinal j (by omega)] at h
  have hvalue := congrArg digitsValue (congrArg Subtype.val h)
  simp only [numbered] at hvalue
  rwa [digitsValue_padDigits 64 i (by omega), digitsValue_padDigits 64 j (by omega)] at hvalue

/-! ### The limit -/

section
variable {W : Type} {digestOf : Bytes → Sha256Hex} {answer : W → (e : Call) → Answer e × W}
  {read : Location → Except Exn ControlSnapshot} {plan : ScalePlan} {current : ImmutableManifest} {bucket : Str}
  {budget : Option Nat} {w : W}

/-- What is returned is a chain that leaves a round to see its end. -/
theorem historyResult_eq_ok (hserves : Serves answer read) {history : List HistoricalManifest} {left : Option Nat} :
    historyResult digestOf answer plan current bucket budget w = .ok (history, left) ↔
      ChainOf digestOf read plan current bucket history ∧ history.length < maxHistoryDepth ∧
        Affords budget history.length ∧ left = budget.map (· + history.length) := by
  rw [historyResult, manifestHistory, run_historyLoop hserves]
  simp only [List.not_mem_nil, not_false_eq_true, implies_true, List.nil_append, true_and]
  constructor
  · rintro ⟨_, hchain, hlength, hafford, rfl, hleft⟩
    exact ⟨hchain, hlength, hafford, hleft⟩
  · rintro ⟨hchain, hlength, hafford, hleft⟩
    exact ⟨history, hchain, hlength, hafford, rfl, hleft⟩

/-- **The walk is complete but for chains as long as the limit.** -/
theorem manifestHistory_complete_iff (hserves : Serves answer read) :
    HistoryComplete digestOf answer read plan current bucket budget w ↔
      ¬ ∃ history, ChainOf digestOf read plan current bucket history ∧ history.length = maxHistoryDepth ∧
        Affords budget maxHistoryDepth := by
  constructor
  · rintro ⟨hcomplete, -⟩ ⟨history, hchain, hlength, hafford⟩
    have hresult := hcomplete history hchain (Nat.le_of_eq hlength) (hlength ▸ hafford)
    have hshort := ((historyResult_eq_ok hserves).mp hresult).2.1
    omega
  · intro hnone
    refine ⟨fun history hchain hlength hafford => ?_, fun hno => ?_⟩
    · have hne : history.length ≠ maxHistoryDepth := fun heq => hnone ⟨history, hchain, heq, heq ▸ hafford⟩
      exact (historyResult_eq_ok hserves).mpr ⟨hchain, Nat.lt_of_le_of_ne hlength hne, hafford, rfl⟩
    · rcases hresult : historyResult digestOf answer plan current bucket budget w with e | ⟨history, left⟩
      · exact ⟨e, rfl⟩
      · obtain ⟨hchain, hlength, -⟩ := (historyResult_eq_ok hserves).mp hresult
        exact absurd ⟨history, hchain, Nat.le_of_lt hlength⟩ hno

end

def sha256Hex (body : Bytes) : Sha256Hex := ⟨sha256 body, sha256_isSha256 body⟩

/-- One manifest before the current one is returned. -/
theorem manifestHistory_complete_one :
    Serves (honest (shelf sha256Hex 1)) (served (shelf sha256Hex 1)) ∧
      HistoryComplete sha256Hex (honest (shelf sha256Hex 1)) (served (shelf sha256Hex 1)) samplePlan (link sha256Hex 1)
        sampleBucket none [] := by
  have hserves := honest_serves (shelf sha256Hex 1)
  have hinj : ∀ i < 1, ∀ j < 1, linkDigest sha256Hex i = linkDigest sha256Hex j → i = j := fun i hi j hj _ => by omega
  have hchain := links_chain hinj (Nat.le_refl 1)
  refine ⟨hserves, (manifestHistory_complete_iff hserves).mpr ?_⟩
  rintro ⟨history, hother, hlength, -⟩
  rw [Links.unique hother hchain, links_length] at hlength
  exact absurd hlength (by decide)

/-- A chain of exactly a thousand valid manifests is refused. -/
theorem manifestHistory_limit_refused : ¬ ∀ digestOf objects plan current bucket,
    HistoryComplete digestOf (honest objects) (served objects) plan current bucket none [] := by
  intro hall
  have hinj : ∀ i < maxHistoryDepth, ∀ j < maxHistoryDepth, linkDigest ordinal i = linkDigest ordinal j → i = j :=
    fun i hi j hj => linkDigest_ordinal_inj hi hj
  have hchain := links_chain hinj (Nat.le_refl _)
  have hresult := (hall ordinal (shelf ordinal maxHistoryDepth) samplePlan (link ordinal maxHistoryDepth)
    sampleBucket).complete _ hchain (Nat.le_of_eq (links_length _)) fun made hmade => by cases hmade
  have hshort := ((historyResult_eq_ok (honest_serves _)).mp hresult).2.1
  rw [links_length] at hshort
  exact Nat.lt_irrefl _ hshort

end Publication
