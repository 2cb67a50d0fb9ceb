import Marginalia.Text.Utf8

/-!
# Journal pages

How the file of a journal begins on a disk. It is a row of pages of 4096 bytes, and the first page
starts with the header of the file. What is stored lies beside the file until the journal is
closed: the file of a new journal holds one empty page up to then.
-/

namespace Marginalia.Journal

/-- A number in a given count of bytes, the most significant one first. -/
def bigEndian : (count : Nat) → (n : Nat) → Text.Bytes
  | 0, _ => []
  | count + 1, n => bigEndian count (n / 256) ++ [UInt8.ofNat n]

@[simp] theorem length_bigEndian (count n : Nat) : (bigEndian count n).length = count := by
  induction count generalizing n with
  | zero => rfl
  | succ count ih => simp [bigEndian, ih]

/-- What the header of a journal file tells. -/
structure FileHeader where
  /-- Whether what is stored goes to a log beside the file: 2 if it does, 1 if not. -/
  mode : UInt8
  /-- How often the file was changed. -/
  changes : Nat
  pages : Nat
  /-- How often the tables were laid out. -/
  layouts : Nat := 0
  /-- The format of the tables, 0 if there are none. -/
  format : Nat := 0
  /-- The encoding of texts, 0 if there are none. -/
  encoding : Nat := 0
  deriving DecidableEq, Repr

namespace FileHeader

def pageSize : Nat := 4096

/-- The release of the database library that writes the files. -/
def release : Nat := 3040001

/-- The bytes of a header. -/
def toBytes (header : FileHeader) : Text.Bytes :=
  Text.encode "SQLite format 3\x00" ++ bigEndian 2 pageSize ++
    [header.mode, header.mode, 0, 64, 32, 32] ++
    bigEndian 4 header.changes ++ bigEndian 4 header.pages ++ List.replicate 8 0 ++
    bigEndian 4 header.layouts ++ bigEndian 4 header.format ++ List.replicate 8 0 ++
    bigEndian 4 header.encoding ++ List.replicate 32 0 ++
    bigEndian 4 header.changes ++ bigEndian 4 release

end FileHeader

/-- The head of a page of rows: its kind, the first gap, the count of its cells, and where their
contents start. -/
def pageHead (gap cells start : Nat) : Text.Bytes :=
  [13] ++ bigEndian 2 gap ++ bigEndian 2 cells ++ bigEndian 2 start ++ [0]

/-- The file of a new journal that was not closed yet. -/
def emptyPage : Text.Bytes :=
  let start := FileHeader.toBytes { mode := 2, changes := 1, pages := 1 } ++
    pageHead 0 0 FileHeader.pageSize
  start ++ List.replicate (FileHeader.pageSize - start.length) 0

/-- How the file of a journal starts that was closed before. The head of its first page is no text,
so that nothing after it shows to a reader of texts. -/
def filedStart : Text.Bytes :=
  FileHeader.toBytes
    { mode := 1, changes := 3, pages := 8, layouts := 5, format := 4, encoding := 1 } ++
    pageHead 0xF75 7 0xAF3

end Marginalia.Journal
