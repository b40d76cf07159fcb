import ProxyCensus.Job.Flush
import ProxyCensus.Proofs.Checkpoint.Snapshot

/-!
# Flushes

What a flush does to the journal, whether it succeeds, is refused by the outside or fails on the disk,
and what becomes of a job in its last flush when it succeeds.
-/

namespace ProxyCensus

variable {τ α : Type}

def Journal.saved (j : Journal α) (folder : Folder) (artifacts : List (String × Document))
    (d : Disk) : Journal α :=
  { j with
    flushCalls := j.flushCalls + 1
    disk := d
    flushed := j.flushed + 1
    logs := j.logs.push (Snapshot.report artifacts folder.label)
    flushes := j.flushes.push (some d) }

theorem Journal.go_flush {out : Outside α} {j : Journal α} {folder : Folder}
    {artifacts : List (String × Document)} {d : Disk} (haccepted : out.flushFault j.flushCalls = none)
    (hdisk : (Snapshot.flush folder.path artifacts).go j.disk = (.ok (), d)) :
    (Journal.flush out folder artifacts).go j = (.ok (), j.saved folder artifacts d) := by
  unfold Journal.flush Journal.onDisk
  rw [Act.go_bind, Act.go_state]
  dsimp only
  rw [Act.go_bind, Act.go_change]
  dsimp only
  rw [haccepted]
  dsimp only
  rw [Act.go_bind, Act.go_on]
  dsimp only
  rw [hdisk]
  rfl

theorem Journal.go_flush_of_refused {out : Outside α} {j : Journal α} {folder : Folder}
    {artifacts : List (String × Document)} {f : Failure}
    (hrefused : out.flushFault j.flushCalls = some f) :
    (Journal.flush out folder artifacts).go j = (.error f, { j with
      flushCalls := j.flushCalls + 1
      flushes := j.flushes.push none }) := by
  unfold Journal.flush
  rw [Act.go_bind, Act.go_state]
  dsimp only
  rw [Act.go_bind, Act.go_change]
  dsimp only
  rw [hrefused]
  rfl

theorem Journal.go_flush_of_failed {out : Outside α} {j : Journal α} {folder : Folder}
    {artifacts : List (String × Document)} {f : Failure} {d : Disk}
    (haccepted : out.flushFault j.flushCalls = none)
    (hdisk : (Snapshot.flush folder.path artifacts).go j.disk = (.error f, d)) :
    (Journal.flush out folder artifacts).go j = (.error f, { j with
      flushCalls := j.flushCalls + 1
      disk := d }) := by
  unfold Journal.flush Journal.onDisk
  rw [Act.go_bind, Act.go_state]
  dsimp only
  rw [Act.go_bind, Act.go_change]
  dsimp only
  rw [haccepted]
  dsimp only
  rw [Act.go_bind, Act.go_on]
  dsimp only
  rw [hdisk]

theorem Job.go_lastFlush {flush : Act (Job τ α) Unit} {job job' : Job τ α}
    (h : flush.go job = (.ok (), job')) (logger what : String) :
    (Job.lastFlush flush logger what).go job = (.ok true, job') := by
  unfold Job.lastFlush
  rw [Act.go_bind, Act.go_outcome, h]
  rfl

end ProxyCensus
