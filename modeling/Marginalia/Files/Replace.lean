import Marginalia.Files

/-!
# Locks and replacement

One writer at a time holds the lock of a file, which is a file beside it. A lock belongs to the
lock file itself: one that takes its place is free. A file is replaced as a whole: the new text is
written beside it and then takes its place, so that what is read is always the old text or the new
one. A departure leaves behind what is written beside it so far.
-/

namespace Marginalia.Files

/-- Takes the lock of a file, and gives the number of the lock file. -/
def acquire (path : Path) : FilesM Nat := do
  let lock ← match path.lock with
    | .ok lock => pure lock
    | .error fault => throw fault
  ensureDirectory lock.parent
  change lock (·.touch lock)
  match ← query lock (·.look lock) with
  | .directory => throw (refusal lock errIsDirectory)
  | .file number _ =>
    if (← get).locks.contains number then throw (.locked path.text)
    modify fun files => { files with locks := number :: files.locks }
    return number

/-- Gives a lock back. -/
def release (number : Nat) : FilesM Unit :=
  modify fun files => { files with locks := files.locks.filter (· != number) }

/-- Runs a block while the lock of a file is held. However the block ends, the lock is given
back. -/
def withLock (path : Path) (block : FilesM α) : FilesM α := do
  let lock ← acquire path
  fun files =>
    match block files with
    | .ok a files => (do release lock; return a) files
    | .error fault files => (do release lock; throw fault) files

/-- Removes a draft if there is one, and goes on with a fault. -/
def discard (draft : Path) (fault : Fault) : FilesM α := do
  if ← doesExist draft then change draft (·.unlink draft)
  throw fault

/-- Goes on with a fault by which the writing of a draft ended. Departures leave the draft. -/
def abandon (draft : Path) (fault : Fault) : FilesM α :=
  if fault.isOrdinary then discard draft fault else throw fault

/-- The text of the pieces that are written; a piece that is no text is refused. -/
def joinChunks (chunks : List Data) : Except Fault (List Char) := do
  let parts ← chunks.mapM fun chunk =>
    match chunk with
    | .text s => Except.ok s.toList
    | .null => .error (.notWritable "None")
    | other => .error (.notWritable other.kind)
  .ok parts.flatten

/-- Writes a file at a place that is open. -/
def store (place : Place) (cs : List Char) : FilesM Unit :=
  modify fun files => files.write place (.bytes (Text.encodeChars cs))

/-- Opens a draft, writes it and puts it in the place of the file. Where there is a fault instead of
a text, something was written before. -/
def writeDraft (draft path : Path) (text : Except Fault (List Char)) (before : List Char) :
    FilesM Unit := do
  let place ← fun files =>
    match checkPath draft with
    | .error fault => .error fault files
    | .ok () =>
      match files.openForWriting draft with
      | .ok (changed, place) => .ok place changed
      | .error code => .error (refusal draft code) files
  match text with
  | .error fault =>
    store place before
    throw fault
  | .ok cs =>
    store place cs
    fun files =>
      match files.rename draft path with
      | .ok changed => .ok () changed
      | .error code => .error (.system ⟨code, draft.text, some path.text⟩) files

/-- Writes a draft to its end and puts it in the place of the file, or goes on with the fault by
which this ended. -/
def finishDraft (draft path : Path) (text : Except Fault (List Char)) (before : List Char) :
    FilesM Unit := fun files =>
  match writeDraft draft path text before files with
  | .ok () files => .ok () files
  | .error fault files => abandon draft fault files

/-- Replaces the text of a file, unless there is a fault instead of a text, before which something
may have been written. -/
def replaceText (path : Path) (text : Except Fault (List Char)) (before : List Char := []) :
    FilesM Unit := do
  let draft ← match path.draft with
    | .ok draft => pure draft
    | .error fault => throw fault
  ensureDirectory path.parent
  finishDraft draft path text before

end Marginalia.Files
