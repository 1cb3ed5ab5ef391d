/-
The arguments of a Spark job over GitHub Archive.

The URIs of the objects come first, then four pairs that say where the objects are from.
`parse` accepts exactly the lists that name the objects of one scale, in order, within the
publication that the pairs name: `parse_eq_ok` says so in both directions.
-/
import DataEngLab.GhArchive.Transforms
import DataEngLab.Datasets.Leases
import DataEngLab.Lib.Dict
import Mathlib.Data.List.Dedup

namespace GhArchive

open Lib

namespace GhArchiveSources

structure Provenance where
  scale : Str
  planId : Str
  publicationId : Str
  manifestSha256 : Str
deriving DecidableEq

structure ResolvedSources where
  canonicalUris : List Str
  sparkUris : List Str
  provenance : Provenance
deriving DecidableEq

/-- `ExpectedNames` -/
def expectedNames : Dict Str (List Str) :=
  [(lit "tiny", [lit "2023-01-01-0.json.gz"]),
    (lit "small", [lit "2023-01-01-0.json.gz", lit "2023-01-01-1.json.gz", lit "2023-01-01-2.json.gz"]),
    (lit "medium", [lit "2023-01-01-0.json.gz", lit "2023-01-01-1.json.gz", lit "2023-01-01-2.json.gz",
      lit "2023-01-01-3.json.gz", lit "2023-01-01-4.json.gz", lit "2023-01-01-5.json.gz"])]

def metadataNames : List Str :=
  [lit "--dataset-scale", lit "--plan-id", lit "--publication-id", lit "--manifest-sha256"]

/-- `[A-Za-z0-9._-]+` -/
def isName (s : Str) : Bool := !s.isEmpty && s.all fun c => isAlnum c || c == 46 || c == 95 || c == 45

def generations : Str := lit "s3://landing/gh_archive/_generations/"

/-- The URI of an object of a publication. -/
def generationUri (plan publication name : Str) : Str :=
  generations ++ plan ++ lit "/" ++ publication ++ lit "/" ++ name

/-- `ImmutableUri`; its groups are where their lengths put them. -/
def immutableUri (uri : Str) : Except IllegalArgument (Str × Str × Str) :=
  let plan := (uri.drop generations.length).take 64
  let publication := (uri.drop (generations.length + 65)).take 32
  let name := uri.drop (generations.length + 98)
  if uri == generationUri plan publication name && isSha256 plan && Datasets.isUuid4Hex publication && isName name
  then .ok (plan, publication, name)
  else .error ⟨"verified immutable GitHub Archive URI arguments are required"⟩

/-- `value.stripPrefix("s3://")`, below the other scheme. -/
def sparkUri (value : Str) : Str :=
  lit "s3a://" ++ if (lit "s3://").isPrefixOf value then value.drop (lit "s3://").length else value

def parse (args : List Str) : Except IllegalArgument ResolvedSources := do
  require (9 ≤ args.length) ⟨"immutable GitHub Archive URIs and provenance are required"⟩
  let canonical := args.take (args.length - 8)
  -- the last eight in pairs, whose names are distinct, so each name has the value beside it
  match args.drop (args.length - 8) with
  | [name₁, scale, name₂, plan, name₃, publication, name₄, manifest] => do
      require ([name₁, name₂, name₃, name₄] == metadataNames)
        ⟨"provenance arguments must follow immutable GitHub Archive URIs"⟩
      let names ← orElse (expectedNames.get? scale) ⟨"invalid GitHub Archive scale"⟩
      require (isSha256 plan && isSha256 manifest && Datasets.isUuid4Hex publication)
        ⟨"invalid GitHub Archive provenance"⟩
      require (canonical.length == names.length && canonical.dedup.length == canonical.length)
        ⟨"GitHub Archive immutable inventory is not exact"⟩
      let parsed ← checkAll immutableUri canonical
      require (parsed.map (fun item => item.2.2) == names)
        ⟨"immutable GitHub Archive URIs must have the exact object order"⟩
      let generation := parsed.map fun item => (item.1, item.2.1)
      require (generation.dedup.length == 1)
        ⟨"immutable GitHub Archive URIs must share one generation"⟩
      require (generation.head? == some (plan, publication))
        ⟨"GitHub Archive provenance does not match URI generation"⟩
      return ⟨canonical, canonical.map sparkUri, ⟨scale, plan, publication, manifest⟩⟩
  | _ => throw ⟨"provenance arguments must follow immutable GitHub Archive URIs"⟩

/-! ### One URI -/

theorem isUuid4Hex_length {s : Str} (h : Datasets.isUuid4Hex s = true) : s.length = 32 :=
  (Pattern.fullmatch_length h).trans (by simp [Pattern.times])

/-- A URI is taken apart into what it was put together from. -/
theorem immutableUri_eq_ok {uri plan publication name : Str} :
    immutableUri uri = .ok (plan, publication, name) ↔
      uri = generationUri plan publication name ∧ isSha256 plan = true ∧ Datasets.isUuid4Hex publication = true ∧
        isName name = true := by
  constructor
  · intro h
    simp only [immutableUri] at h
    split at h
    · rename_i hall
      simp only [Bool.and_eq_true, beq_iff_eq] at hall
      simp only [Except.ok.injEq, Prod.mk.injEq] at h
      obtain ⟨rfl, rfl, rfl⟩ := h
      exact ⟨hall.1.1.1, hall.1.1.2, hall.1.2, hall.2⟩
    · cases h
  · rintro ⟨rfl, hplan, hpublication, hname⟩
    have hp := isSha256_length hplan
    have hq := isUuid4Hex_length hpublication
    have htail : ∀ k, (generationUri plan publication name).drop (generations.length + k) =
        (plan ++ (lit "/" ++ (publication ++ (lit "/" ++ name)))).drop k := by
      intro k
      simp only [generationUri, List.append_assoc]
      rw [← List.drop_drop, List.drop_left]
    have h₁ : ((generationUri plan publication name).drop generations.length).take 64 = plan := by
      have := htail 0
      rw [Nat.add_zero] at this
      rw [this, List.drop_zero, ← hp, List.take_left]
    have hslash : (lit "/").length = 1 := rfl
    have h₂ : ((generationUri plan publication name).drop (generations.length + 65)).take 32 = publication := by
      rw [htail, show 65 = plan.length + (lit "/").length by rw [hp, hslash], ← List.drop_drop, List.drop_left,
        List.drop_left, ← hq, List.take_left]
    have h₃ : (generationUri plan publication name).drop (generations.length + 98) = name := by
      rw [htail, show 98 = plan.length + ((lit "/").length + (publication.length + (lit "/").length)) by
        rw [hp, hslash, hq], ← List.drop_drop, List.drop_left, ← List.drop_drop, List.drop_left, ← List.drop_drop,
        List.drop_left, List.drop_left]
    simp [immutableUri, h₁, h₂, h₃, hplan, hpublication, hname]

theorem generationUri_injective (plan publication : Str) :
    Function.Injective (generationUri plan publication) := fun a b h => by simpa [generationUri] using h

/-! ### The whole list -/

/-- The arguments that name where the objects are from. -/
def Provenance.arguments (p : Provenance) : List Str :=
  [lit "--dataset-scale", p.scale, lit "--plan-id", p.planId, lit "--publication-id", p.publicationId,
    lit "--manifest-sha256", p.manifestSha256]

/-- The provenance of a publication, and the names of its scale. -/
structure Provenance.Names (p : Provenance) (names : List Str) : Prop where
  scale : expectedNames.get? p.scale = some names
  planId : isSha256 p.planId = true
  publicationId : Datasets.isUuid4Hex p.publicationId = true
  manifestSha256 : isSha256 p.manifestSha256 = true

/-- The URIs that belong to a provenance. -/
def Provenance.uris (p : Provenance) (names : List Str) : List Str :=
  names.map (generationUri p.planId p.publicationId)

/-- All names are ones that the expression for URIs allows, none is there twice, and there is one. -/
theorem expectedNames_fit {scale : Str} {names : List Str} (h : expectedNames.get? scale = some names) :
    (∀ name ∈ names, isName name = true) ∧ names.Nodup ∧ names ≠ [] := by
  have hmem := Dict.mem_of_get? h
  have hall : ∀ x ∈ expectedNames, (∀ name ∈ x.2, isName name = true) ∧ x.2.Nodup ∧ x.2 ≠ [] := by
    decide
  exact hall _ hmem

/-- URIs of one generation, taken apart one by one. -/
theorem checkAll_immutableUri {canonical : List Str} {parsed : List (Str × Str × Str)} {plan publication : Str}
    (h : checkAll immutableUri canonical = .ok parsed)
    (hall : ∀ item ∈ parsed, (item.1, item.2.1) = (plan, publication)) :
    canonical = (parsed.map fun item => item.2.2).map (generationUri plan publication) := by
  have hforall := checkAll_eq_ok.mp h
  clear h
  induction hforall with
  | nil => rfl
  | @cons uri item canonical parsed huri _ ih =>
      have hfirst := hall item (by simp)
      obtain ⟨p, q, name⟩ := item
      obtain ⟨rfl, rfl⟩ := Prod.mk.inj hfirst
      rw [List.map_cons, List.map_cons, ← ih fun x hx => hall x (List.mem_cons_of_mem _ hx),
        (immutableUri_eq_ok.mp huri).1]

/-- All elements of a list with one distinct element are the same. -/
theorem eq_of_dedup {α : Type} [DecidableEq α] {xs : List α} {a b : α} (h : xs.dedup.length = 1) (ha : a ∈ xs)
    (hb : b ∈ xs) : b = a := by
  obtain ⟨x, hx⟩ := List.length_eq_one_iff.mp h
  rw [← List.mem_dedup, hx, List.mem_singleton] at ha hb
  rw [ha, hb]

/-- **The lists that are accepted are those of one publication.** -/
theorem parse_eq_ok {args : List Str} {sources : ResolvedSources} :
    parse args = .ok sources ↔ ∃ names, sources.provenance.Names names ∧
      sources.canonicalUris = sources.provenance.uris names ∧
      sources.sparkUris = sources.canonicalUris.map sparkUri ∧
      args = sources.canonicalUris ++ sources.provenance.arguments := by
  constructor
  · intro h
    simp only [parse, bind_eq_ok, require_eq_ok] at h
    obtain ⟨-, hlength, h⟩ := h
    split at h
    · rename_i n₁ scale n₂ plan n₃ publication n₄ manifest htail
      simp only [bind_eq_ok, require_eq_ok, orElse_eq_ok, beq_iff_eq, Bool.and_eq_true, pure_eq_ok] at h
      obtain ⟨-, hnames, names, hscale, -, ⟨⟨hplan, hmanifest⟩, hpublication⟩, -, -, parsed, hparsed, -, horder, -,
        hshared, -, hhead, rfl⟩ := h
      have hgeneration : ∀ item ∈ parsed, (item.1, item.2.1) = (plan, publication) := by
        intro item hitem
        have hmem : (item.1, item.2.1) ∈ parsed.map fun item => (item.1, item.2.1) :=
          List.mem_map.mpr ⟨item, hitem, rfl⟩
        exact eq_of_dedup hshared (List.mem_of_mem_head? hhead) hmem
      have huris := checkAll_immutableUri hparsed hgeneration
      rw [horder] at huris
      refine ⟨names, ⟨hscale, hplan, hpublication, hmanifest⟩, huris, rfl, ?_⟩
      simp only [metadataNames, List.cons.injEq, and_true] at hnames
      obtain ⟨rfl, rfl, rfl, rfl⟩ := hnames
      rw [Provenance.arguments, ← htail, List.take_append_drop]
    · cases h
  · rintro ⟨names, hnames, huris, hspark, rfl⟩
    obtain ⟨hfit, hnodup, hne⟩ := expectedNames_fit hnames.scale
    obtain ⟨canonical, spark, provenance⟩ := sources
    dsimp only at huris hspark hnames hne
    subst hspark huris
    have hpos := List.length_pos_iff.mpr hne
    have hcount : (provenance.uris names ++ provenance.arguments).length = names.length + 8 := by
      simp [Provenance.uris, Provenance.arguments]
    have hlength : (provenance.uris names).length = names.length := List.length_map _
    have htake : (provenance.uris names ++ provenance.arguments).take (names.length + 8 - 8) =
        provenance.uris names := by
      rw [Nat.add_sub_cancel, ← hlength, List.take_left]
    have hdrop : (provenance.uris names ++ provenance.arguments).drop (names.length + 8 - 8) =
        provenance.arguments := by
      rw [Nat.add_sub_cancel, ← hlength, List.drop_left]
    have hparsed : checkAll immutableUri (provenance.uris names) =
        .ok (names.map fun name => (provenance.planId, provenance.publicationId, name)) := by
      rw [checkAll_eq_ok, Provenance.uris, List.forall₂_map_left_iff, List.forall₂_map_right_iff]
      exact List.forall₂_same.mpr fun name hname =>
        immutableUri_eq_ok.mpr ⟨rfl, hnames.planId, hnames.publicationId, hfit name hname⟩
    have hnames' : (names.map fun name => (provenance.planId, provenance.publicationId, name)).map
        (fun item => item.2.2) = names := by
      rw [List.map_map]
      exact List.map_id names
    have hgeneration : (names.map fun name => (provenance.planId, provenance.publicationId, name)).map
        (fun item => (item.1, item.2.1)) =
          List.replicate names.length (provenance.planId, provenance.publicationId) := by
      rw [List.map_map, ← List.map_const']
      rfl
    have hdistinct : (provenance.uris names).dedup = provenance.uris names :=
      (hnodup.map (generationUri_injective _ _)).dedup
    simp only [parse, bind_eq_ok, require_eq_ok, hcount, htake, hdrop, decide_eq_true_eq]
    refine ⟨(), by omega, ?_⟩
    rw [Provenance.arguments]
    simp only [bind_eq_ok, require_eq_ok, orElse_eq_ok, pure_eq_ok]
    refine ⟨(), beq_self_eq_true _, names, hnames.scale, (), ?_, (), ?_, _, hparsed, (), ?_, (), ?_, (), ?_, trivial⟩
    · rw [hnames.planId, hnames.publicationId, hnames.manifestSha256]
      rfl
    · rw [hdistinct, hlength, beq_self_eq_true]
      rfl
    · rw [hnames', beq_self_eq_true]
    · rw [hgeneration, List.replicate_dedup hpos.ne']
      rfl
    · rw [hgeneration, List.head?_replicate, if_neg hpos.ne', beq_self_eq_true]

/-- The URIs of an accepted list all belong to the generation that the list names. -/
theorem parse_generation {args : List Str} {sources : ResolvedSources} (h : parse args = .ok sources) :
    ∀ uri ∈ sources.canonicalUris, ∃ name,
      immutableUri uri = .ok (sources.provenance.planId, sources.provenance.publicationId, name) := by
  obtain ⟨names, hnames, huris, -, -⟩ := parse_eq_ok.mp h
  intro uri huri
  rw [huris, Provenance.uris] at huri
  obtain ⟨name, hname, rfl⟩ := List.mem_map.mp huri
  exact ⟨name, immutableUri_eq_ok.mpr ⟨rfl, hnames.planId, hnames.publicationId,
    (expectedNames_fit hnames.scale).1 name hname⟩⟩

end GhArchiveSources

end GhArchive
