/-
The features of the MovieLens pipeline.

`FeatureTransforms` has two aggregates of the ratings, one row for each user and one for each
movie, and the checks of the ratings and of the features.  The checks look at any frame, as
they are also made of what is read back from a table.  The average of doubles is a
parameter: its last digits depend on the order in which Spark adds.
-/
import DataEngLab.Lib.Checks
import DataEngLab.Lib.Frames
import Mathlib.Data.List.Dedup

namespace MovieLens

open Lib

/-- What the pipeline raises. -/
inductive Exn where
  | illegalArgument (message : String)
  | illegalState (message : String)
  | other
deriving DecidableEq

def ratingsSchema : Schema :=
  [⟨"userId", .long, true⟩, ⟨"movieId", .long, true⟩, ⟨"rating", .double, true⟩, ⟨"timestamp", .long, true⟩]

def userSchema : Schema :=
  [⟨"userId", .long, true⟩, ⟨"avg_rating", .double, true⟩, ⟨"num_ratings", .long, false⟩]

def movieSchema : Schema :=
  [⟨"movieId", .long, true⟩, ⟨"movie_avg", .double, true⟩, ⟨"popularity", .long, false⟩]

def require (c : Bool) (message : String) : Except Exn Unit := Lib.require c (.illegalArgument message)

/-! ### Ratings -/

/-- `isnan` or one of the infinities. -/
def notFinite : Cell → Bool
  | .double .nan => true
  | .double (.infinite _) => true
  | _ => false

def validateRatings (frame : Frame) : Except Exn Unit := do
  require (frame.schema == ratingsSchema) "ratings must have the exact production schema"
  require (!frame.rows.isEmpty) "ratings must be nonempty"
  require (!frame.rows.any fun row => row.any (· == .null)) "ratings must not contain nulls"
  require (!frame.rows.any fun row => notFinite (frame.schema.cell "rating" row)) "ratings must be finite"

/-- A row of validated ratings. -/
structure Rating where
  userId : Int
  movieId : Int
  rating : Double
  timestamp : Int
deriving DecidableEq

def Rating.ofRow : Row → Option Rating
  | [.long userId, .long movieId, .double rating, .long timestamp] => some ⟨userId, movieId, rating, timestamp⟩
  | _ => none

def ratingsOf (frame : Frame) : List Rating := frame.rows.filterMap Rating.ofRow

/-! ### Aggregates -/

/-- A key, its average and its count. -/
structure Feature where
  key : Int
  average : Double
  count : Int
deriving DecidableEq

def Feature.row (f : Feature) : Row := [.long f.key, .double f.average, .long f.count]

section
variable (avg : List Double → Double)

/-- `groupBy(key).agg(avg(rating), count(1))` -/
def aggregate (key : Rating → Int) (ratings : List Rating) : List Feature :=
  (ratings.map key).dedup.map fun k =>
    let group := ratings.filter fun r => key r == k
    ⟨k, avg (group.map Rating.rating), group.length⟩

/-- The frame of an aggregate, whose columns have the types of the features. -/
def featureFrame (schema : Schema) (h : schema.map Field.type = [.long, .double, .long])
    (features : List Feature) : Frame where
  schema := schema
  rows := features.map Feature.row
  conforms r hr := by
    obtain ⟨f, -, rfl⟩ := List.mem_map.mp hr
    obtain ⟨a, rest, rfl, ha, hrest⟩ := List.map_eq_cons_iff.mp h
    obtain ⟨b, rest, rfl, hb, hrest⟩ := List.map_eq_cons_iff.mp hrest
    obtain ⟨c, rest, rfl, hc, hrest⟩ := List.map_eq_cons_iff.mp hrest
    obtain rfl := List.map_eq_nil_iff.mp hrest
    simp [Conforms, Feature.row, ha, hb, hc, Cell.fits]

def userFeatures (ratings : Frame) : Frame :=
  featureFrame userSchema rfl (aggregate avg Rating.userId (ratingsOf ratings))

def movieFeatures (ratings : Frame) : Frame :=
  featureFrame movieSchema rfl (aggregate avg Rating.movieId (ratingsOf ratings))

end

/-! ### Checks of the features -/

def isPositive : Cell → Bool
  | .long n => decide (0 < n)
  | _ => true

def longOf : Cell → Int
  | .long n => n
  | _ => 0

/-- `F.sum` of a `long` column, which wraps around. -/
def sumLong (cells : List Cell) : Int := (cells.map longOf).sum.bmod (2 ^ 64)

/-- The column `frame.columns(1)`. -/
def secondColumn (schema : Schema) : String := ((schema.map Field.name)[1]?).getD ""

def validateFeatures (frame : Frame) (expected : Schema) (key countColumn : String) (sourceRows : Int) :
    Except Exn Unit := do
  require (frame.schema.columns == expected.columns) (key ++ " features have the wrong schema")
  require (!frame.rows.isEmpty) (key ++ " features must be nonempty")
  require (!frame.rows.any fun row => row.any (· == .null)) (key ++ " features must not contain nulls")
  require (decide (frame.rows.map (frame.schema.cell key)).Nodup) (key ++ " features must have one row per key")
  require (!frame.rows.any fun row => notFinite (frame.schema.cell (secondColumn frame.schema) row) ||
    !isPositive (frame.schema.cell countColumn row)) (key ++ " features contain invalid measures")
  require (sumLong (frame.rows.map (frame.schema.cell countColumn)) == sourceRows)
    (key ++ " feature counts do not equal the source rating count")

end MovieLens
