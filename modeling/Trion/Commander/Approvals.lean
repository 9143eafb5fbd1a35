import Mathlib.Algebra.Order.Field.Rat
import Trion.Library.OperationRun
import Trion.Library.OrderedDict

/-!
# Deploy approvals

`commander_approval_store.py` and `commander_approval_workflow.py`.  A deployment that needs an
approval is put in the pending table; a user approves or rejects it, or its time runs out.  The
locked sections of the operations are the steps of the system: approving is the section that marks
the approval, the start of the container, and the section that moves the approval to the history.
An approval is an object that the table, the history and the calls in progress share, so a section
that changes it changes it for all of them.  What a deployment asks for is a value `R` that is only
passed on.
-/

namespace Trion.Commander

open OrderedDict OperationRun

inductive ApprovalStatus where
  | pending
  | approved
  | rejected
  | expired
deriving DecidableEq, Repr

structure PendingApproval (R : Type) where
  id : String
  request : R
  status : ApprovalStatus := .pending
  expiresAt : ℚ
  resolvedAt : Option String := none
  resolvedBy : Option String := none
deriving DecidableEq, Repr

/-- What a section reads off the clock. -/
structure Moment where
  time : ℚ
  isoformat : String := ""
deriving DecidableEq, Repr

/-- `is_expired`. -/
def PendingApproval.isExpired {R : Type} (a : PendingApproval R) (now : Moment) : Bool :=
  decide (a.expiresAt < now.time)

/-- The rows of the stored file. -/
structure ApprovalFile (R : Type) where
  pending : List (PendingApproval R)
  history : List (PendingApproval R)
deriving DecidableEq, Repr

/-- What happens to the approval ids. -/
inductive ApprovalEvent (R : Type) where
  /-- An approval is put in the table. -/
  | added (id : String) (request : R) (expiresAt : ℚ)
  /-- A pending approval gets another status. -/
  | resolved (id : String) (status : ApprovalStatus) (time : ℚ)
  /-- `start_container` is called. -/
  | started (id : String) (request : R)
  /-- The container could not be started. -/
  | startFailed (id : String)
deriving DecidableEq, Repr

/-- The store of one process: the approval objects, the table and the history with the objects they
hold, the stored file, and the objects held by the calls that are past their first section.  The
log is no part of the program. -/
structure ApprovalStore (R : Type) where
  objects : List (PendingApproval R) := []
  pending : List (String × ℕ) := []
  history : List ℕ := []
  file : Option (ApprovalFile R) := none
  approved : List ℕ := []
  starting : List ℕ := []
  rejected : List ℕ := []
  log : List (ApprovalEvent R) := []
deriving DecidableEq, Repr

namespace ApprovalStore

variable {R : Type}

/-! ### Parts of the sections -/

/-- `_pending.get(approval_id)`. -/
def find? (s : ApprovalStore R) (id : String) : Option (ℕ × PendingApproval R) :=
  (get? s.pending id).bind fun ref => s.objects[ref]?.map fun a => (ref, a)

/-- The approvals with these objects. -/
def rows (s : ApprovalStore R) (refs : List ℕ) : List (PendingApproval R) :=
  refs.filterMap fun ref => s.objects[ref]?

/-- `save_unlocked`; a file that cannot be written stays as it was. -/
def save (s : ApprovalStore R) (saves : Bool) : ApprovalStore R :=
  if saves then { s with file := some ⟨s.rows (s.pending.map Prod.snd), s.rows s.history⟩ } else s

/-- `_pending[item.id] = item` for a new approval. -/
def add (s : ApprovalStore R) (a : PendingApproval R) : ApprovalStore R :=
  { s with
    objects := s.objects ++ [a]
    pending := OrderedDict.insert s.pending a.id s.objects.length
    log := s.log ++ [.added a.id a.request a.expiresAt] }

/-- `item.status = status`. -/
def setStatus (s : ApprovalStore R) (ref : ℕ) (status : ApprovalStatus) (now : Moment) :
    ApprovalStore R :=
  { s with
    objects := s.objects.modify ref fun a => { a with status }
    log := s.log ++ match s.objects[ref]? with
      | some a => if a.status = .pending then [.resolved a.id status now.time] else []
      | none => [] }

/-- `resolved_at` and `resolved_by`. -/
def stamp (s : ApprovalStore R) (ref : ℕ) (now : Moment) (resolvedBy : String) : ApprovalStore R :=
  { s with
    objects := s.objects.modify ref fun a =>
      { a with resolvedAt := some now.isoformat, resolvedBy := some resolvedBy } }

/-- `_pending.pop(id, None)` and `_history.append(item)`. -/
def retire (s : ApprovalStore R) (id : String) (ref : ℕ) : ApprovalStore R :=
  { s with pending := erase s.pending id, history := s.history ++ [ref] }

/-- The approval runs out. -/
def expire (s : ApprovalStore R) (id : String) (ref : ℕ) (now : Moment) : ApprovalStore R :=
  ((s.setStatus ref .expired now).stamp ref now "system_ttl").retire id ref

/-- `cleanup_expired_unlocked`. -/
def cleanupExpired (s : ApprovalStore R) (now : Moment) (saves : Bool) : ApprovalStore R :=
  let expired := s.pending.filter fun e =>
    s.objects[e.2]?.any fun a => a.status = .pending && a.isExpired now
  if expired.isEmpty then s
  else (expired.foldl (fun s e => s.expire e.1 e.2 now) s).save saves

/-- A row of the file that `sync_from_disk_if_stale` takes over. -/
def syncRow (s : ApprovalStore R) (row : PendingApproval R) : ApprovalStore R :=
  if row.status = .pending ∧ has s.pending row.id = false then s.add row else s

/-- A pending row of the file that `load_store` reads. -/
def loadRow (s : ApprovalStore R) (row : PendingApproval R) : ApprovalStore R :=
  if row.status = .pending then s.add row
  else { s with objects := s.objects ++ [row], history := s.history ++ [s.objects.length] }

/-- A history row of the file that `load_store` reads. -/
def loadHistoryRow (s : ApprovalStore R) (row : PendingApproval R) : ApprovalStore R :=
  { s with objects := s.objects ++ [row], history := s.history ++ [s.objects.length] }

/-- The pending approvals that `get_pending` shows. -/
def pendingRows (s : ApprovalStore R) : List (PendingApproval R) :=
  (s.rows (s.pending.map Prod.snd)).filter fun a => a.status = .pending

end ApprovalStore

/-! ### Sections -/

/-- The sections of the operations.  The rows of `load` and `sync` are what has been read from the
file, `none` where it is not there, not newer or not readable. -/
inductive ApprovalAction (R : Type) where
  /-- `load_store` when a process starts. -/
  | load (file : Option (ApprovalFile R))
  /-- `sync_from_disk_if_stale`. -/
  | sync (file : Option (ApprovalFile R))
  /-- `request_approval`. -/
  | request (id : String) (request : R)
  /-- The first section of `approve`. -/
  | approve (id approvedBy : String)
  /-- The call of `start_container` in `approve`. -/
  | start (ref : ℕ)
  /-- The last section of `approve`, after a start that went well or that raised. -/
  | started (ref : ℕ) (ok : Bool)
  /-- The first section of `reject`. -/
  | reject (id rejectedBy : String)
  /-- The last section of `reject`. -/
  | rejected (ref : ℕ)
  /-- The section of `get_pending`. -/
  | getPending
  /-- The section of `get_approval`. -/
  | getApproval (id : String)
deriving Repr

/-- A section that is entered, the clock and whether the file can be written. -/
structure ApprovalCall (R : Type) where
  now : Moment
  saves : Bool := true
  action : ApprovalAction R
deriving Repr

/-- What a section yields. -/
inductive ApprovalAnswer (R : Type) where
  | nothing
  | shown (approvals : List (PendingApproval R))
  | held (ref : ℕ)
  | finished (ok : Bool)
deriving Repr

section Sections

variable {R : Type}

open ApprovalStore

/-- `load_store` in a new process. -/
def loadStore (s : ApprovalStore R) (now : Moment) (saves : Bool) :
    Option (ApprovalFile R) → ApprovalStore R
  | none => { objects := s.objects, file := s.file, log := s.log }
  | some file =>
    let fresh : ApprovalStore R := { objects := s.objects, file := s.file, log := s.log }
    let loaded := file.history.foldl loadHistoryRow (file.pending.foldl loadRow fresh)
    (loaded.cleanupExpired now saves).save saves

/-- `sync_from_disk_if_stale`. -/
def syncStore (s : ApprovalStore R) : Option (ApprovalFile R) → ApprovalStore R
  | none => s
  | some file => file.pending.foldl syncRow s

/-- `request_approval`. -/
def requestApproval (ttl : ℤ) (s : ApprovalStore R) (now : Moment) (saves : Bool) (id : String)
    (request : R) : ApprovalStore R × ApprovalAnswer R :=
  let approval : PendingApproval R := { id, request, expiresAt := now.time + ttl }
  (((s.cleanupExpired now saves).add approval).save saves, .shown [approval])

/-- `approve` up to the start of the container. -/
def approve (s : ApprovalStore R) (now : Moment) (saves : Bool) (id approvedBy : String) :
    ApprovalStore R × ApprovalAnswer R :=
  match s.find? id with
  | none => (s, .nothing)
  | some (ref, a) =>
    if a.isExpired now then ((s.expire id ref now).save saves, .nothing)
    else if a.status ≠ .pending then (s, .nothing)
    else
      let marked := (s.setStatus ref .approved now).stamp ref now approvedBy
      ({ marked with approved := marked.approved ++ [ref] }, .held ref)

/-- The call of `start_container`. -/
def startContainer (s : ApprovalStore R) (ref : ℕ) : ApprovalStore R × ApprovalAnswer R :=
  match s.objects[ref]? with
  | some a =>
    if ref ∈ s.approved then
      ({ s with
          approved := s.approved.erase ref
          starting := s.starting ++ [ref]
          log := s.log ++ [.started a.id a.request] }, .held ref)
    else (s, .nothing)
  | none => (s, .nothing)

/-- `approve` from the start of the container on. -/
def finishApprove (s : ApprovalStore R) (now : Moment) (saves : Bool) (ref : ℕ) (ok : Bool) :
    ApprovalStore R × ApprovalAnswer R :=
  match s.objects[ref]? with
  | some a =>
    if ref ∈ s.starting then
      let s := { s with starting := s.starting.erase ref }
      if ok then ((s.retire a.id ref).save saves, .finished true)
      else
        let failed := (s.setStatus ref .rejected now).stamp ref now "system_start_failed"
        let noted := { failed with log := failed.log ++ [ApprovalEvent.startFailed a.id] }
        ((noted.retire a.id ref).save saves, .finished false)
    else (s, .nothing)
  | none => (s, .nothing)

/-- The first section of `reject`. -/
def reject (s : ApprovalStore R) (now : Moment) (id rejectedBy : String) :
    ApprovalStore R × ApprovalAnswer R :=
  match s.find? id with
  | none => (s, .finished false)
  | some (ref, a) =>
    if a.status ≠ .pending then (s, .finished false)
    else
      let marked := (s.setStatus ref .rejected now).stamp ref now rejectedBy
      ({ marked with rejected := marked.rejected ++ [ref] }, .held ref)

/-- The last section of `reject`. -/
def finishReject (s : ApprovalStore R) (saves : Bool) (ref : ℕ) :
    ApprovalStore R × ApprovalAnswer R :=
  match s.objects[ref]? with
  | some a =>
    if ref ∈ s.rejected then
      (({ s with rejected := s.rejected.erase ref }.retire a.id ref).save saves, .finished true)
    else (s, .nothing)
  | none => (s, .nothing)

/-- The section of `get_approval`. -/
def getApproval (s : ApprovalStore R) (now : Moment) (id : String) :
    ApprovalStore R × ApprovalAnswer R :=
  match s.find? id with
  | none => (s, .nothing)
  | some (ref, a) =>
    let s := if a.isExpired now ∧ a.status = .pending then s.setStatus ref .expired now else s
    (s, .shown (s.rows [ref]))

/-- A section of an operation. -/
def approvalSystem (ttl : ℤ) : System (ApprovalStore R) (ApprovalCall R) (ApprovalAnswer R) :=
  fun s call =>
    match call.action with
    | .load file => (loadStore s call.now call.saves file, .nothing)
    | .sync file => (syncStore s file, .nothing)
    | .request id request => requestApproval ttl s call.now call.saves id request
    | .approve id approvedBy => approve s call.now call.saves id approvedBy
    | .start ref => startContainer s ref
    | .started ref ok => finishApprove s call.now call.saves ref ok
    | .reject id rejectedBy => reject s call.now id rejectedBy
    | .rejected ref => finishReject s call.saves ref
    | .getPending =>
      let s := s.cleanupExpired call.now call.saves
      (s, .shown s.pendingRows)
    | .getApproval id => getApproval s call.now id

end Sections

end Trion.Commander
