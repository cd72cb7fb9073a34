import RootSeeker.CodeIndex.QdrantIndexer

/-!
# What a ready index contains

An index that is reported ready holds the points of its chunks.  It holds
nothing else of its repository when the old points were deleted, and the
deletion may have failed without a trace.
-/

namespace RootSeeker.CodeIndex

open Python

variable {V : Type}

/-! ## Points -/

namespace Points

variable {points : Points V} {entries : List (PyStr × Point V)} {id : PyStr} {point : Point V}

theorem upsert_of_not_mem (points : Points V) (hid : id ∉ entries.map Prod.fst) :
    points.upsert entries id = points id := by
  induction entries generalizing points with
  | nil => rfl
  | cons entry rest ih =>
    rw [List.map_cons, List.mem_cons, not_or] at hid
    have hupsert : points.upsert (entry :: rest) =
        Points.upsert (Function.update points entry.1 (some entry.2)) rest := rfl
    rw [hupsert, ih _ hid.2, Function.update_of_ne hid.1]

theorem upsert_of_mem (points : Points V) (hnodup : (entries.map Prod.fst).Nodup)
    (hmem : (id, point) ∈ entries) : points.upsert entries id = some point := by
  induction entries generalizing points with
  | nil => exact absurd hmem List.not_mem_nil
  | cons entry rest ih =>
    rw [List.map_cons, List.nodup_cons] at hnodup
    have hupsert : points.upsert (entry :: rest) =
        Points.upsert (Function.update points entry.1 (some entry.2)) rest := rfl
    rw [hupsert]
    rcases List.mem_cons.mp hmem with rfl | hrest
    · rw [upsert_of_not_mem _ hnodup.1, Function.update_self]
    · exact ih _ hnodup.2 hrest

theorem upsert_append (points : Points V) (first second : List (PyStr × Point V)) :
    points.upsert (first ++ second) = (points.upsert first).upsert second :=
  List.foldl_append

theorem deleteRepo_eq_some_iff {repoName : PyStr} :
    points.deleteRepo repoName id = some point ↔
      points id = some point ∧ point.ofRepo repoName = false := by
  rw [deleteRepo, Option.filter_eq_some_iff, Bool.not_eq_true']

theorem deleteRepo_empty (repoName : PyStr) :
    deleteRepo (fun _ => none : Points V) repoName = fun _ => none :=
  rfl

end Points

/-! ## Batches -/

theorem flatten_takes {α : Type} (points : List α) (size count : ℕ) :
    ((List.range count).map fun number => (points.drop (size * number)).take size).flatten =
      points.take (size * count) := by
  induction count with
  | zero => rw [List.range_zero, Nat.mul_zero, List.take_zero]; rfl
  | succ count ih =>
    rw [List.range_succ, List.map_append, List.flatten_append, ih, List.map_singleton,
      List.flatten_singleton, Nat.mul_succ, List.take_add]

theorem flatten_batches {α : Type} (points : List α) :
    (QdrantIndexer.batches points).flatten = points := by
  rw [QdrantIndexer.batches, flatten_takes]
  apply List.take_of_length_le
  have hsize : QdrantIndexer.batchSize = 128 := rfl
  rw [hsize]
  omega

namespace QdrantIndexer

variable (indexer : QdrantIndexer V) {failures : Failures}

/-! ## The promise -/

/-- The points of the repository are exactly one for each chunk. -/
def HoldsExactly (repoName : PyStr) (chunks : List CodeChunk) (points : Points V) : Prop :=
  ∃ entries : List (PyStr × Point V), (entries.map Prod.fst).Nodup ∧
    List.Forall₂ (fun chunk entry => entry.1 = indexer.pointId chunk ∧
      entry.2.payload = chunkPayload repoName chunk) chunks entries ∧
    ∀ id point, (points id = some point ∧ point.ofRepo repoName = true) ↔ (id, point) ∈ entries

/-- The points of the other repositories are as before. -/
def OthersUnchanged (repoName : PyStr) (before after : Points V) : Prop :=
  ∀ id point, point.ofRepo repoName = false →
    (before id = some point ↔ after id = some point)

def storedPoints (server : Qdrant V) : Points V :=
  server.collection.elim (fun _ => none) Collection.points

/-- The collection has vectors of another size. -/
def NeedsRecreation (server : Qdrant V) : Prop :=
  ∃ collection, server.collection = some collection ∧
    collection.size ≠ some indexer.dimension

/-- What a ready index promises. -/
def ExactIndex (repoName : PyStr) (chunks : List CodeChunk) (before after : Qdrant V) : Prop :=
  indexer.HoldsExactly repoName chunks (storedPoints after) ∧
    (¬indexer.NeedsRecreation before →
      OthersUnchanged repoName (storedPoints before) (storedPoints after))

/-- When it is kept: where the collection is used as it is, the two calls of the deletion
succeed or every old point of the repository is written over, and no chunk has the id of a
point of another repository. -/
def CleanStart (failures : Failures) (repoName : PyStr) (chunks : List CodeChunk)
    (server : Qdrant V) : Prop :=
  ∀ collection, server.collection = some collection →
    collection.size = some indexer.dimension →
      ((failures (server.calls + 1) = none ∧ failures (server.calls + 2) = none) ∨
        ∀ id point, collection.points id = some point → point.ofRepo repoName = true →
          id ∈ chunks.map indexer.pointId) ∧
      ∀ id point, collection.points id = some point → point.ofRepo repoName = false →
        id ∉ chunks.map indexer.pointId

/-! ## What the calls leave -/

variable {indexer} {server : Qdrant V} {repoName : PyStr} {chunks : List CodeChunk}

theorem call_of_none {effect : Option (Collection V) → Option (Collection V)}
    (hnone : failures server.calls = none) :
    server.call failures effect =
      (.ok (), { collection := effect server.collection, calls := server.calls + 1 }) := by
  rw [Qdrant.call, hnone]

theorem call_of_some {effect : Option (Collection V) → Option (Collection V)}
    {error : HttpError} (hsome : failures server.calls = some error) :
    server.call failures effect = (.error error, { server with calls := server.calls + 1 }) := by
  rw [Qdrant.call, hsome]

/-- The points that the set-up of the collection leaves. -/
def keptPoints (indexer : QdrantIndexer V) (server : Qdrant V) : Points V :=
  match server.collection with
  | some collection =>
    if collection.size = some indexer.dimension then collection.points else fun _ => none
  | none => fun _ => none

theorem catchHttpError_snd (result : Except HttpError Bool × Qdrant V) :
    (catchHttpError result).2 = result.2 := by
  rw [catchHttpError]
  split
  · rfl
  · rfl

theorem catchHttpError_eq_true {result : Except HttpError Bool × Qdrant V}
    (htrue : (catchHttpError result).1 = .ok true) : result.1 = .ok true := by
  rw [catchHttpError] at htrue
  split at htrue
  · exact absurd htrue (by simp)
  · exact htrue

theorem createCollection_collection
    (hcreated : (indexer.createCollection failures server).1 = .ok true) :
    (indexer.createCollection failures server).2.collection =
      some { size := some indexer.dimension, points := fun _ => none } := by
  rw [createCollection] at hcreated ⊢
  cases hfailure : failures server.calls with
  | none => rw [call_of_none hfailure]
  | some error =>
    rw [call_of_some hfailure] at hcreated
    exact absurd hcreated (by simp [Except.map])

/-- A set-up that succeeds leaves a collection of the right size. -/
theorem ensureCollection_collection
    (hensured : (indexer.ensureCollection failures server).1 = .ok true) :
    (indexer.ensureCollection failures server).2.collection =
      some { size := some indexer.dimension, points := indexer.keptPoints server } := by
  have hresult := catchHttpError_eq_true hensured
  rw [ensureCollection, catchHttpError_snd]
  dsimp only at hresult ⊢
  cases hfound : failures server.calls with
  | some error =>
    rw [call_of_some hfound] at hresult
    exact absurd hresult (by simp)
  | none =>
    rw [call_of_none hfound] at hresult ⊢
    dsimp only [id] at hresult ⊢
    cases hcollection : server.collection with
    | none =>
      rw [hcollection] at hresult
      rw [keptPoints, hcollection]
      exact createCollection_collection hresult
    | some collection =>
      rw [hcollection] at hresult
      simp only [keptPoints, hcollection]
      dsimp only at hresult ⊢
      by_cases hsize : collection.size = some indexer.dimension
      · rw [if_pos hsize, if_pos hsize, ← hsize]
      · rw [if_neg hsize] at hresult ⊢
        rw [if_neg hsize]
        cases hdeleted : failures (server.calls + 1) with
        | some error =>
          rw [call_of_some hdeleted] at hresult
          exact absurd hresult (by simp)
        | none =>
          rw [call_of_none hdeleted] at hresult ⊢
          exact createCollection_collection hresult

variable {collection : Collection V}

/-- The set-up of a collection of the right size is one call that changes nothing. -/
theorem ensureCollection_of_matching (hcollection : server.collection = some collection)
    (hsize : collection.size = some indexer.dimension) :
    (indexer.ensureCollection failures server).2 = { server with calls := server.calls + 1 } ∧
      ((indexer.ensureCollection failures server).1 = .ok true ↔ failures server.calls = none) := by
  rw [ensureCollection]
  dsimp only
  cases hfound : failures server.calls with
  | some error =>
    rw [call_of_some hfound, catchHttpError_snd]
    refine ⟨rfl, iff_of_false ?_ (by simp)⟩
    intro htrue
    exact absurd (catchHttpError_eq_true htrue) (by simp)
  | none =>
    rw [call_of_none hfound, hcollection]
    simp only [id_eq, if_pos hsize]
    exact ⟨rfl, iff_of_true rfl trivial⟩

/-- The deletion takes effect when both its calls succeed. -/
theorem deleteRepo_collection {points : Points V} (hcollection : server.collection =
      some { size := some indexer.dimension, points := points }) :
    (indexer.deleteRepo failures repoName server).2.collection =
      some { size := some indexer.dimension
             points :=
              if failures server.calls = none ∧ failures (server.calls + 1) = none then
                points.deleteRepo repoName
              else points } := by
  obtain ⟨hserver, hensured⟩ := @ensureCollection_of_matching _ indexer failures _ _ hcollection rfl
  rw [deleteRepo, catchHttpError_snd]
  dsimp only
  cases hresult : (indexer.ensureCollection failures server).1 with
  | error error =>
    have hnot : ¬(failures server.calls = none ∧ failures (server.calls + 1) = none) :=
      fun hboth => absurd (hensured.mpr hboth.1) (by simp [hresult])
    rw [hserver, if_neg hnot]
    exact hcollection
  | ok found =>
    cases found with
    | false =>
      have hnot : ¬(failures server.calls = none ∧ failures (server.calls + 1) = none) :=
        fun hboth => absurd (hensured.mpr hboth.1) (by simp [hresult])
      rw [hserver, if_neg hnot]
      exact hcollection
    | true =>
      have hfirst := hensured.mp hresult
      dsimp only
      rw [hserver]
      cases hsecond : failures (server.calls + 1) with
      | some error =>
        rw [call_of_some hsecond, if_neg (by simp)]
        exact hcollection
      | none =>
        rw [call_of_none hsecond, if_pos ⟨hfirst, rfl⟩, hcollection]
        rfl

theorem uploadBatches_collection {batches : List (List (PyStr × Point V))}
    (hcollection : server.collection = some collection)
    (huploaded : (uploadBatches failures batches server).1 = .ok ()) :
    (uploadBatches failures batches server).2.collection =
      some { collection with points := collection.points.upsert batches.flatten } := by
  induction batches generalizing server collection with
  | nil => exact hcollection
  | cons batch rest ih =>
    rw [uploadBatches] at huploaded ⊢
    cases hfailure : failures server.calls with
    | some error =>
      rw [call_of_some hfailure] at huploaded
      exact absurd huploaded (by simp)
    | none =>
      rw [call_of_none hfailure] at huploaded ⊢
      rw [hcollection] at huploaded ⊢
      rw [List.flatten_cons, Points.upsert_append]
      exact ih rfl huploaded

/-! ## An index that is ready -/

/-- The points that the deletion leaves. -/
def cleanedPoints (indexer : QdrantIndexer V) (failures : Failures) (repoName : PyStr)
    (server : Qdrant V) : Points V :=
  if failures (server.calls + 1) = none ∧ failures (server.calls + 2) = none then
    (indexer.keptPoints server).deleteRepo repoName
  else indexer.keptPoints server

theorem keptPoints_of_matching (hcollection : server.collection = some collection)
    (hsize : collection.size = some indexer.dimension) :
    indexer.keptPoints server = collection.points := by
  simp only [keptPoints, hcollection, if_pos hsize]

/-- Without a collection of the right size nothing is kept. -/
theorem keptPoints_of_not_matching (hnot : ¬∃ collection, server.collection = some collection ∧
      collection.size = some indexer.dimension) : indexer.keptPoints server = fun _ => none := by
  rw [keptPoints]
  split
  next collection hcollection =>
    exact if_neg fun hsize => hnot ⟨collection, hcollection, hsize⟩
  · rfl

theorem deleteRepo_after_ensure (hensured : (indexer.ensureCollection failures server).1 = .ok true) :
    (indexer.deleteRepo failures repoName
        (indexer.ensureCollection failures server).2).2.collection =
      some { size := some indexer.dimension
             points := indexer.cleanedPoints failures repoName server } := by
  rw [deleteRepo_collection (ensureCollection_collection hensured), cleanedPoints]
  by_cases hmatching : ∃ collection, server.collection = some collection ∧
      collection.size = some indexer.dimension
  · obtain ⟨collection, hcollection, hsize⟩ := hmatching
    rw [(ensureCollection_of_matching hcollection hsize).1]
  · rw [keptPoints_of_not_matching hmatching, Points.deleteRepo_empty, ite_self, ite_self]

theorem chunkPoints_forall₂ {entries : List (PyStr × Point V)}
    (hentries : indexer.chunkPoints repoName chunks = .ok entries) :
    List.Forall₂ (fun chunk entry => entry.1 = indexer.pointId chunk ∧
      entry.2.payload = chunkPayload repoName chunk) chunks entries := by
  have hzip : ∀ (chunks : List CodeChunk) (embeddings : List V),
      embeddings.length = chunks.length →
      List.Forall₂ (fun chunk entry => entry.1 = indexer.pointId chunk ∧
        entry.2.payload = chunkPayload repoName chunk) chunks
        (List.zipWith (indexer.chunkPoint repoName) chunks embeddings) := by
    intro chunks
    induction chunks with
    | nil => exact fun embeddings _ => List.Forall₂.nil
    | cons chunk rest ih =>
      intro embeddings hlength
      cases embeddings with
      | nil => exact absurd hlength (by simp)
      | cons embedding embeddings =>
        exact List.Forall₂.cons ⟨rfl, rfl⟩ (ih embeddings (Nat.succ.inj hlength))
  rw [chunkPoints] at hentries
  split at hentries
  · exact absurd hentries (by simp)
  next embeddings _ =>
    split at hentries
    · exact absurd hentries (by simp)
    next hlength =>
      rw [← Except.ok.inj hentries]
      exact hzip chunks embeddings (not_not.mp hlength)

/-- A ready index has written one point for each chunk over what the deletion has left. -/
theorem indexChunks_ready
    (hready : (indexer.indexChunks failures repoName chunks server).1.ready = true) :
    ∃ entries : List (PyStr × Point V),
      List.Forall₂ (fun chunk entry => entry.1 = indexer.pointId chunk ∧
        entry.2.payload = chunkPayload repoName chunk) chunks entries ∧
      (indexer.indexChunks failures repoName chunks server).2.collection =
        some { size := some indexer.dimension
               points := (indexer.cleanedPoints failures repoName server).upsert entries } := by
  rw [indexChunks] at hready ⊢
  dsimp only at hready ⊢
  cases hensured : (indexer.ensureCollection failures server).1 with
  | error error =>
    rw [hensured] at hready
    exact absurd hready (by simp [notReady])
  | ok found =>
    cases found with
    | false =>
      rw [hensured] at hready
      exact absurd hready (by simp [notReady])
    | true =>
      have hdeleted := @deleteRepo_after_ensure _ _ _ _ repoName hensured
      rw [hensured] at hready
      dsimp only at hready ⊢
      split at hready
      next hempty =>
        rw [if_pos hempty]
        rw [List.isEmpty_iff] at hempty
        refine ⟨[], hempty ▸ List.Forall₂.nil, ?_⟩
        split at hready
        · exact absurd hready (by simp [notReady])
        · exact hdeleted
      next hsome =>
        rw [if_neg hsome]
        split at hready
        · exact absurd hready (by simp [notReady])
        next entries hentries =>
          refine ⟨entries, chunkPoints_forall₂ hentries, ?_⟩
          rw [uploadPoints] at hready ⊢
          dsimp only at hready ⊢
          split at hready
          · exact absurd hready (by simp [notReady])
          · split at hready
            · exact absurd hready (by simp [notReady])
            next hupload =>
              have hbatches := uploadBatches_collection hdeleted hupload
              rw [flatten_batches] at hbatches
              exact hbatches

section Written

variable {left before : Points V} {entries : List (PyStr × Point V)}

section

variable (hentries : List.Forall₂ (fun chunk entry => entry.1 = indexer.pointId chunk ∧
  entry.2.payload = chunkPayload repoName chunk) chunks entries)

include hentries

theorem keys_of_forall₂ : entries.map Prod.fst = chunks.map indexer.pointId := by
  induction hentries with
  | nil => rfl
  | cons hentry _ ih => rw [List.map_cons, List.map_cons, hentry.1, ih]

theorem ofRepo_of_forall₂ : ∀ entry ∈ entries, entry.2.ofRepo repoName = true := by
  induction hentries with
  | nil => exact fun entry hentry => absurd hentry List.not_mem_nil
  | cons hentry _ ih =>
    refine List.forall_mem_cons.mpr ⟨?_, ih⟩
    rw [Point.ofRepo, hentry.2]
    exact decide_eq_true rfl

end

section

variable (hnodup : (chunks.map indexer.pointId).Nodup)
  (hentries : List.Forall₂ (fun chunk entry => entry.1 = indexer.pointId chunk ∧ entry.2.payload
    = chunkPayload repoName chunk) chunks entries)

include hnodup hentries

/-- What is written over the points that are left is exact when those of the repository are
all written over. -/
theorem holdsExactly_iff :
    indexer.HoldsExactly repoName chunks (left.upsert entries) ↔
      ∀ id point, left id = some point → point.ofRepo repoName = true →
        id ∈ chunks.map indexer.pointId := by
  have hkeys := keys_of_forall₂ hentries
  constructor
  · rintro ⟨others, _, hothers, hexact⟩ id point hleft hrepo
    by_contra hid
    have hwritten : left.upsert entries id = some point := by
      rw [Points.upsert_of_not_mem left (hkeys ▸ hid)]
      exact hleft
    apply hid
    rw [← keys_of_forall₂ hothers]
    exact List.mem_map_of_mem ((hexact id point).mp ⟨hwritten, hrepo⟩)
  · intro hcovered
    refine ⟨entries, hkeys ▸ hnodup, hentries, ?_⟩
    intro id point
    constructor
    · rintro ⟨hwritten, hrepo⟩
      have hid : id ∈ entries.map Prod.fst := by
        by_contra hid
        rw [Points.upsert_of_not_mem left hid] at hwritten
        exact hid (hkeys ▸ hcovered id point hwritten hrepo)
      obtain ⟨⟨_, other⟩, hmem, rfl⟩ := List.mem_map.mp hid
      rw [Points.upsert_of_mem left (hkeys ▸ hnodup) hmem] at hwritten
      rw [← Option.some.inj hwritten]
      exact hmem
    · intro hmem
      exact ⟨Points.upsert_of_mem left (hkeys ▸ hnodup) hmem, ofRepo_of_forall₂ hentries _ hmem⟩

/-- The other repositories keep their points when no chunk has the id of one of them. -/
theorem othersUnchanged_iff (hleft : OthersUnchanged repoName before left) :
    OthersUnchanged repoName before (left.upsert entries) ↔
      ∀ id point, before id = some point → point.ofRepo repoName = false →
        id ∉ chunks.map indexer.pointId := by
  have hkeys := keys_of_forall₂ hentries
  constructor
  · intro hsame id point hbefore hrepo hid
    rw [← hkeys] at hid
    obtain ⟨⟨_, other⟩, hmem, rfl⟩ := List.mem_map.mp hid
    have hkept := (hsame _ point hrepo).mp hbefore
    rw [Points.upsert_of_mem left (hkeys ▸ hnodup) hmem] at hkept
    have hother := ofRepo_of_forall₂ hentries _ hmem
    rw [Option.some.inj hkept, hrepo] at hother
    exact absurd hother (by simp)
  · intro hfree id point hrepo
    by_cases hid : id ∈ entries.map Prod.fst
    · obtain ⟨⟨_, other⟩, hmem, rfl⟩ := List.mem_map.mp hid
      apply iff_of_false
      · intro hbefore
        exact hfree _ point hbefore hrepo (hkeys ▸ hid)
      · intro hkept
        rw [Points.upsert_of_mem left (hkeys ▸ hnodup) hmem] at hkept
        have hother := ofRepo_of_forall₂ hentries _ hmem
        rw [Option.some.inj hkept, hrepo] at hother
        exact absurd hother (by simp)
    · rw [Points.upsert_of_not_mem left hid]
      exact hleft id point hrepo

end

end Written

/-- The deletion takes the points of the repository and no others. -/
theorem othersUnchanged_cleanedPoints :
    OthersUnchanged repoName (indexer.keptPoints server)
      (indexer.cleanedPoints failures repoName server) := by
  intro id point hrepo
  rw [cleanedPoints]
  split
  · rw [Points.deleteRepo_eq_some_iff]
    exact ⟨fun hkept => ⟨hkept, hrepo⟩, fun hkept => hkept.1⟩
  · rfl

/-- What the deletion leaves of the repository is written over exactly when it succeeds or
every old point is. -/
theorem cleanedPoints_covered_iff :
    (∀ id point, indexer.cleanedPoints failures repoName server id = some point →
        point.ofRepo repoName = true → id ∈ chunks.map indexer.pointId) ↔
      (failures (server.calls + 1) = none ∧ failures (server.calls + 2) = none) ∨
        ∀ id point, indexer.keptPoints server id = some point → point.ofRepo repoName = true →
          id ∈ chunks.map indexer.pointId := by
  rw [cleanedPoints]
  split
  next hdeleted =>
    apply iff_of_true _ (.inl hdeleted)
    intro id point hleft hrepo
    rw [Points.deleteRepo_eq_some_iff, hrepo] at hleft
    exact absurd hleft.2 (by simp)
  next hfailed => rw [or_iff_right hfailed]

/-- A ready index is exact for the clean starts. -/
theorem ready_index_exact_iff (indexer : QdrantIndexer V)
    (huuid5 : Function.Injective indexer.uuid5) (failures : Failures) (repoName : PyStr)
    {chunks : List CodeChunk} (hkeys : (chunks.map CodeChunk.stableKey).Nodup) (server : Qdrant V)
    (hready : (indexer.indexChunks failures repoName chunks server).1.ready = true) :
    indexer.ExactIndex repoName chunks server
        (indexer.indexChunks failures repoName chunks server).2 ↔
      indexer.CleanStart failures repoName chunks server := by
  have hnodup : (chunks.map indexer.pointId).Nodup := by
    have hids : chunks.map indexer.pointId =
        (chunks.map CodeChunk.stableKey).map indexer.uuid5 := by
      rw [List.map_map]
      rfl
    rw [hids]
    exact hkeys.map huuid5
  obtain ⟨entries, hentries, hcollection⟩ := indexChunks_ready hready
  have hstored : storedPoints (indexer.indexChunks failures repoName chunks server).2 =
      (indexer.cleanedPoints failures repoName server).upsert entries := by
    rw [storedPoints, hcollection]
    rfl
  rw [ExactIndex, hstored, holdsExactly_iff hnodup hentries, cleanedPoints_covered_iff]
  by_cases hmatching : ∃ collection, server.collection = some collection ∧
      collection.size = some indexer.dimension
  · obtain ⟨collection, hcurrent, hsize⟩ := hmatching
    have hkept := keptPoints_of_matching hcurrent hsize
    have hbefore : storedPoints server = collection.points := by
      rw [storedPoints, hcurrent]
      rfl
    have hsame : ¬indexer.NeedsRecreation server := by
      rintro ⟨other, hother, hne⟩
      rw [hcurrent] at hother
      exact hne (Option.some.inj hother ▸ hsize)
    have hothers := othersUnchanged_iff hnodup hentries
      (@othersUnchanged_cleanedPoints _ indexer failures server repoName)
    rw [hkept] at hothers ⊢
    rw [forall_prop_of_true hsame, hbefore, hothers]
    constructor
    · intro hboth other hother _
      rw [hcurrent] at hother
      obtain rfl := Option.some.inj hother
      exact hboth
    · intro hclean
      exact hclean collection hcurrent hsize
  · have hkept := keptPoints_of_not_matching hmatching
    have hclean : indexer.CleanStart failures repoName chunks server :=
      fun collection hcurrent hsize => absurd ⟨collection, hcurrent, hsize⟩ hmatching
    apply iff_of_true _ hclean
    rw [hkept]
    refine ⟨.inr fun id point hnone => absurd hnone (by simp), fun hsame => ?_⟩
    have hnone : server.collection = none := by
      cases hcurrent : server.collection with
      | none => rfl
      | some collection =>
        exact absurd ⟨collection, hcurrent,
          fun hsize => hmatching ⟨collection, hcurrent, hsize⟩⟩ hsame
    have hbefore : storedPoints server = indexer.keptPoints server := by
      rw [storedPoints, hnone, hkept]
      rfl
    rw [hbefore, othersUnchanged_iff hnodup hentries othersUnchanged_cleanedPoints, hkept]
    exact fun id point hpoint => absurd hpoint (by simp)

/-! ## Runs -/

/-- An indexer with one vector. -/
def unitIndexer : QdrantIndexer Unit where
  collectionName := py "code_chunks"
  dimension := 1
  embedDocuments texts := .ok (texts.map fun _ => ())
  uuid5 := id

def demoChunk : CodeChunk where
  repo := py "demo"
  path := py "main.py"
  language := py "python"
  startLine := 1
  endLine := 2
  content := py "pass"
  sha256 := py "c0ffee"
  symbol := none
  symbolKind := none

def emptyServer : Qdrant Unit where
  collection := none
  calls := 0

theorem first_index_is_exact :
    unitIndexer.ExactIndex (py "demo") [demoChunk] emptyServer
      (unitIndexer.indexChunks (fun _ => none) (py "demo") [demoChunk] emptyServer).2 := by
  have hkeys : ([demoChunk].map CodeChunk.stableKey).Nodup := List.nodup_singleton _
  apply (ready_index_exact_iff unitIndexer Function.injective_id (fun _ => none) (py "demo")
    hkeys emptyServer rfl).mpr
  exact fun collection hcollection => absurd hcollection (by simp [emptyServer])

/-- A point of an earlier run. -/
def stalePoint : Point Unit where
  vector := ()
  payload := [(py "repo", .str (py "demo"))]

def indexedServer : Qdrant Unit where
  collection := some
    { size := some 1
      points := fun id => if id = py "old" then some stalePoint else none }
  calls := 0

/-- The call that deletes the points fails. -/
def failingDeletion : Failures := fun number =>
  if number = 2 then some (.httpError (py "503")) else none

theorem failed_deletion_keeps_stale_points :
    (unitIndexer.indexChunks failingDeletion (py "demo") [] indexedServer).1.ready = true ∧
      ¬unitIndexer.ExactIndex (py "demo") [] indexedServer
        (unitIndexer.indexChunks failingDeletion (py "demo") [] indexedServer).2 := by
  refine ⟨rfl, ?_⟩
  rintro ⟨⟨entries, _, hentries, hexact⟩, _⟩
  obtain rfl := List.forall₂_nil_left_iff.mp hentries
  exact absurd ((hexact (py "old") stalePoint).mp ⟨rfl, rfl⟩) List.not_mem_nil

end QdrantIndexer

end RootSeeker.CodeIndex
