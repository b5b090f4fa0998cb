import Predication.Database.Image.Log

/-!
Journals: pages of the file of a database as they were before a transaction that did not end. To
play a journal back takes the transaction back.
-/

namespace Predication.Image

def journalMagic : List UInt8 :=
  [0xd9, 0xd5, 0x05, 0xf9, 0x20, 0xa1, 0x63, 0xd7]

/-- The sector size that is assumed before a journal says another one. -/
def sectorSize : Nat := 512

/-- The header of a part of a journal: how many pages follow, a number that their checksums start
from, and how many pages the database had. -/
structure JournalHeader where
  records : Nat
  nonce : Nat
  count : Nat
  sector : Nat
  pageSize : Nat

def journalHeader? (journal : ByteArray) (filePageSize start : Nat) : Option JournalHeader := do
  guard (start + sectorSize ≤ journal.size)
  guard ((journal.extract start (start + 8)).toList = journalMagic)
  let sector ← number? journal 20 4
  let written ← number? journal 24 4
  let pageSize := if written = 0 then filePageSize else written
  guard (512 ≤ pageSize ∧ pageSize ≤ 65536 ∧ pageSize.isPowerOfTwo)
  guard (32 ≤ sector ∧ sector ≤ 65536 ∧ sector.isPowerOfTwo)
  return ⟨← number? journal (start + 8) 4, ← number? journal (start + 12) 4,
    ← number? journal (start + 16) 4, sector, pageSize⟩

def pageChecksum (nonce : Nat) (page : ByteArray) : Nat :=
  let places := (List.range (page.size / 200 + 1)).filterMap fun i =>
    if 200 * (i + 1) < page.size then some (page.size - 200 * (i + 1)) else none
  (places.foldl (fun sum i => sum + (byteAt? page i).getD 0) nonce) % 0x100000000

def replacePage (bytes : ByteArray) (pageSize n : Nat) (page : ByteArray) : ByteArray :=
  let front := bytes.extract 0 ((n - 1) * pageSize)
  let front : ByteArray :=
    ⟨front.data ++ Array.replicate ((n - 1) * pageSize - front.size) 0⟩
  front ++ page ++ bytes.extract (n * pageSize) bytes.size

/-- The page that holds the locks of a file is never in a journal. -/
def lockPage (pageSize : Nat) : Nat :=
  0x40000000 / pageSize + 1

/-- What becomes of a file by the records of one part of a journal, and where the next part can be;
a record that is damaged, or is not all there, is the last one that is looked at. The pages that
were put back already are left out. -/
def playRecords (journal : ByteArray) (h : JournalHeader) (count : Nat) :
    Nat → Nat → List Nat → ByteArray → ByteArray × List Nat × Option Nat
  | 0, at_, done, bytes => (bytes, done, some at_)
  | left + 1, at_, done, bytes =>
      let page := journal.extract (at_ + 4) (at_ + 4 + h.pageSize)
      let next := at_ + h.pageSize + 8
      match number? journal at_ 4, number? journal (at_ + 4 + h.pageSize) 4 with
      | some n, some sum =>
          if n = 0 ∨ n = lockPage h.pageSize then (bytes, done, none)
          else if count < n ∨ done.contains n then
            playRecords journal h count left next done bytes
          else if pageChecksum h.nonce page ≠ sum then (bytes, done, none)
          else
            playRecords journal h count left next (n :: done) (replacePage bytes h.pageSize n page)
      | _, _ => (bytes, done, none)

def resized (bytes : ByteArray) (pageSize count : Nat) : ByteArray :=
  let part := bytes.extract 0 (count * pageSize)
  ⟨part.data ++ Array.replicate (count * pageSize - part.size) 0⟩

def playParts (journal : ByteArray) (filePageSize count : Nat) :
    Nat → Nat → List Nat → ByteArray → ByteArray
  | 0, _, _, bytes => bytes
  | fuel + 1, start, done, bytes =>
      match journalHeader? journal filePageSize start with
      | none => bytes
      | some h =>
          let records :=
            if h.records = 0xffffffff then (journal.size - h.sector) / (h.pageSize + 8)
            else h.records
          match playRecords journal h count records (start + h.sector) done bytes with
          | (bytes, _, none) => bytes
          | (bytes, done, some stop) =>
              let next := (stop + h.sector - 1) / h.sector * h.sector
              playParts journal filePageSize count fuel next done bytes

def played (bytes journal : ByteArray) (filePageSize : Nat) : ByteArray :=
  match journalHeader? journal filePageSize 0 with
  | none => bytes
  | some h =>
      let count := pagesWithin bytes.size h.pageSize h.count
      playParts journal filePageSize count (journal.size / 512 + 1) 0 []
        (resized bytes h.pageSize count)

end Predication.Image
