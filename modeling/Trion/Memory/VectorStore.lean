import Mathlib.Algebra.GroupWithZero.Nat
import Mathlib.Data.Rat.Defs
import Trion.Python.Text

/-!
# The vector store

`VectorStore` keeps texts with their embeddings in a table.  Each embedding carries the version
of the model and the policy that made it, and a row whose version is not the active one is stale.
`backfill_embeddings` takes the first stale rows and gives them new embeddings, as far as the
embedding service has one for the text.
-/

namespace Trion.Memory

open Python

/-! ### The embedding service -/

/-- What the store uses of its surroundings: the model and the policy in force, the hash of the
version, and the answers of the service to the texts of the entries. -/
structure EmbeddingService where
  model : String
  policy : String
  lower : String → String
  /-- `hashlib.sha256(text.encode("utf-8")).hexdigest()`. -/
  sha256 : String → String
  request : ℤ → String → Option (List ℚ)

namespace EmbeddingService

variable (service : EmbeddingService)

/-- `compute_embedding_version_id`. -/
def computeEmbeddingVersionId (model runtimePolicy : String) : String :=
  let seed := strip model ++ "|" ++ service.lower (strip (orElse runtimePolicy "auto"))
  "embv1_" ++ sliceTo (service.sha256 seed) 16

/-- `get_active_embedding_version`. -/
def getActiveEmbeddingVersion : String :=
  service.computeEmbeddingVersionId service.model service.policy

/-- `get_embedding`: a blank text is not sent, and an empty vector is none. -/
def getEmbedding (entryId : ℤ) (text : String) : Option (List ℚ) :=
  if strip text = "" then none else (service.request entryId text).filter fun vector => vector ≠ []

end EmbeddingService

/-- What `get_embedding_with_metadata` returns. -/
structure Embedding where
  embedding : List ℚ
  embeddingModel : String
  embeddingDim : ℕ
  embeddingVersion : String
deriving DecidableEq, Repr

/-- `get_embedding_with_metadata`. -/
def EmbeddingService.getEmbeddingWithMetadata (service : EmbeddingService) (entryId : ℤ)
    (text : String) : Option Embedding :=
  (service.getEmbedding entryId text).map fun embedding =>
    { embedding
      embeddingModel := service.model
      embeddingDim := embedding.length
      embeddingVersion := service.computeEmbeddingVersionId service.model service.policy }

/-! ### The table -/

/-- A row of `embeddings`. -/
structure Entry where
  id : ℤ
  conversationId : String
  content : String
  contentType : Option String
  embedding : Option (List ℚ) := none
  embeddingModel : Option String := none
  embeddingDim : Option ℕ := none
  embeddingVersion : Option String := none
deriving DecidableEq, Repr

/-- `UPDATE embeddings SET ...`. -/
def Entry.embedded (emb : Embedding) (entry : Entry) : Entry :=
  { entry with
    embedding := some emb.embedding
    embeddingModel := some emb.embeddingModel
    embeddingDim := some emb.embeddingDim
    embeddingVersion := some emb.embeddingVersion }

/-- The table in the order of its primary key. -/
structure VectorTable where
  rows : List Entry
  sorted : rows.Pairwise fun a b => a.id < b.id

/-- `UPDATE embeddings SET ... WHERE id = ?`. -/
def VectorTable.update (t : VectorTable) (entryId : ℤ) (emb : Embedding) : VectorTable where
  rows := t.rows.map fun entry => if entry.id = entryId then entry.embedded emb else entry
  sorted := by
    refine List.pairwise_map.mpr (t.sorted.imp fun {a b} hlt => ?_)
    have hid : ∀ entry : Entry,
        (if entry.id = entryId then entry.embedded emb else entry).id = entry.id := by
      intro entry
      split <;> rfl
    rwa [hid, hid]

/-- The filters of a query; an empty text is no filter. -/
structure EntryFilter where
  conversationId : Option String := none
  contentType : Option String := none
deriving DecidableEq, Repr

/-- The row passes the filters. -/
def EntryFilter.Admits (filter : EntryFilter) (entry : Entry) : Prop :=
  (filter.conversationId.getD "" ≠ "" → entry.conversationId = filter.conversationId.getD "") ∧
    (filter.contentType.getD "" ≠ "" → entry.contentType = some (filter.contentType.getD ""))

instance (filter : EntryFilter) : DecidablePred filter.Admits := fun _ =>
  inferInstanceAs (Decidable (_ ∧ _))

/-! ### The status -/

/-- What `get_version_status` returns. -/
structure VersionStatus where
  activeVersion : String
  total : ℕ
  activeCount : ℕ
  staleCount : ℕ
  byVersion : List (String × ℕ)
deriving DecidableEq, Repr

/-- The order of the groups: `NULL` first, then by the text. -/
def versionLe : Option String → Option String → Bool
  | none, _ => true
  | some _, none => false
  | some a, some b => !decide (b < a)

/-- The groups of `GROUP BY embedding_version` with their sizes. -/
def versionGroups (entries : List Entry) : List (Option String × ℕ) :=
  ((entries.map Entry.embeddingVersion).dedup.mergeSort versionLe).map fun version =>
    (version, entries.countP fun entry => entry.embeddingVersion = version)

/-- An entry of a dictionary comprehension: a later value replaces an earlier one in its place. -/
def putCount (counts : List (String × ℕ)) (group : String × ℕ) : List (String × ℕ) :=
  if counts.any (·.1 == group.1) then counts.map fun c => if c.1 = group.1 then group else c
  else counts ++ [group]

/-- `get_version_status`. -/
def VectorTable.getVersionStatus (t : VectorTable) (service : EmbeddingService)
    (filter : EntryFilter) : VersionStatus :=
  let byVersion := ((versionGroups (t.rows.filter fun entry => filter.Admits entry)).map
    fun group => (orElse (group.1.getD "") "null", group.2)).foldl putCount []
  let total := (byVersion.map Prod.snd).sum
  let activeCount := (byVersion.lookup service.getActiveEmbeddingVersion).getD 0
  { activeVersion := service.getActiveEmbeddingVersion
    total, activeCount, staleCount := total - activeCount, byVersion }

/-! ### The backfill -/

/-- The version of the row is missing or not the active one. -/
def Entry.IsStale (service : EmbeddingService) (entry : Entry) : Prop :=
  entry.embeddingVersion ≠ some service.getActiveEmbeddingVersion

instance (service : EmbeddingService) : DecidablePred (Entry.IsStale service) := fun _ =>
  inferInstanceAs (Decidable (_ ≠ _))

/-- What `backfill_embeddings` answers. -/
structure BackfillAnswer where
  dryRun : Bool
  activeVersion : String
  selected : ℕ
  processed : ℕ
  failed : ℕ
  remainingStale : ℕ
deriving DecidableEq, Repr

/-- The rows that a call takes. -/
def VectorTable.selected (t : VectorTable) (service : EmbeddingService) (filter : EntryFilter)
    (batchSize : ℕ) : List Entry :=
  (t.rows.filter fun entry => entry.IsStale service ∧ filter.Admits entry).take batchSize

/-- The variables of the loop. -/
structure BackfillState where
  table : VectorTable
  processed : ℕ := 0
  failed : ℕ := 0

/-- One turn of the loop. -/
def backfillRow (service : EmbeddingService) (s : BackfillState) (row : Entry) : BackfillState :=
  match service.getEmbeddingWithMetadata row.id row.content with
  | none => { s with failed := s.failed + 1 }
  | some emb => { s with table := s.table.update row.id emb, processed := s.processed + 1 }

/-- `backfill_embeddings`. -/
def VectorTable.backfillEmbeddings (t : VectorTable) (service : EmbeddingService) (batchSize : ℕ)
    (filter : EntryFilter) (dryRun : Bool) : BackfillAnswer × VectorTable :=
  let rows := t.selected service filter batchSize
  if dryRun then
    ({ dryRun := true, activeVersion := service.getActiveEmbeddingVersion, selected := rows.length
       processed := 0, failed := 0
       remainingStale := (t.getVersionStatus service filter).staleCount }, t)
  else
    let s := rows.foldl (backfillRow service) ⟨t, 0, 0⟩
    ({ dryRun := false, activeVersion := service.getActiveEmbeddingVersion, selected := rows.length
       processed := s.processed, failed := s.failed
       remainingStale := (s.table.getVersionStatus service filter).staleCount }, s.table)

end Trion.Memory
