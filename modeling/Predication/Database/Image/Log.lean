import Predication.Database.Image.Page

/-!
Logs: pages that were written but are not in the file of a database yet. Checksums tie each page to
those before it, and a page can end a transaction.
-/

namespace Predication.Image

/-- A page in a log. One that ends a transaction says how many pages the database has then. -/
structure Frame where
  page : Nat
  count : Nat
  content : ByteArray

/-- A log of a kind that is not known cannot be used; one that is no log says nothing. -/
inductive LogContent where
  | unusable
  | frames (pageSize : Nat) (frames : List Frame)

def words (bigEndian : Bool) : List UInt8 → List UInt32
  | a :: b :: c :: d :: rest =>
      let word (x y z w : UInt8) : UInt32 :=
        x.toUInt32 <<< 24 ||| y.toUInt32 <<< 16 ||| z.toUInt32 <<< 8 ||| w.toUInt32
      (if bigEndian then word a b c d else word d c b a) :: words bigEndian rest
  | _ => []

/-- Two sums over pairs of words, each of which goes into the other. -/
def checksum : UInt32 × UInt32 → List UInt32 → UInt32 × UInt32
  | (s, t), x :: y :: rest =>
      let s := s + x + t
      let t := t + y + s
      checksum (s, t) rest
  | sums, _ => sums

def sumsAt? (b : ByteArray) (i : Nat) : Option (UInt32 × UInt32) := do
  return (UInt32.ofNat (← number? b i 4), UInt32.ofNat (← number? b (i + 4) 4))

def headerSize : Nat := 32

def frameHeaderSize : Nat := 24

/-- The frames from a position on, as far as they have the salt of the log and fitting checksums; at
most as many as `fuel`. -/
def framesFrom (log : ByteArray) (bigEndian : Bool) (pageSize : Nat) :
    Nat → Nat → UInt32 × UInt32 → List Frame
  | 0, _, _ => []
  | fuel + 1, start, sums =>
      let body := start + frameHeaderSize
      let content := log.extract body (body + pageSize)
      let part := (log.extract start (start + 8)).toList ++ content.toList
      let next := checksum sums (words bigEndian part)
      match number? log start 4, number? log (start + 4) 4, sumsAt? log (start + 16) with
      | some page, some count, some given =>
          if content.size < pageSize ∨ page = 0 ∨ given ≠ next ∨
              (log.extract (start + 8) (start + 16)).toList ≠ (log.extract 16 24).toList then []
          else
            ⟨page, count, content⟩ ::
              framesFrom log bigEndian pageSize fuel (body + pageSize) next
      | _, _, _ => []

def finished (frames : List Frame) : List Frame :=
  (frames.reverse.dropWhile fun f => f.count == 0).reverse

def logContent (log : ByteArray) : LogContent :=
  match number? log 0 4, number? log 4 4, number? log 8 4, sumsAt? log 24 with
  | some magic, some version, some pageSize, some given =>
      let bigEndian := magic == 0x377f0683
      let sums := checksum (0, 0) (words bigEndian (log.extract 0 24).toList)
      if (magic ≠ 0x377f0682 ∧ magic ≠ 0x377f0683) ∨ log.size ≤ headerSize ∨ pageSize < 512 ∨
          65536 < pageSize ∨ !pageSize.isPowerOfTwo ∨ given ≠ sums then .frames 0 []
      else if version ≠ 3007000 then .unusable
      else
        let count := (log.size - headerSize) / (frameHeaderSize + pageSize)
        .frames pageSize (finished (framesFrom log bigEndian pageSize count headerSize sums))
  | _, _, _, _ => .frames 0 []

def pageOf (bytes : ByteArray) (pageSize n : Nat) : ByteArray :=
  let part := bytes.extract ((n - 1) * pageSize) (n * pageSize)
  ⟨part.data ++ Array.replicate (pageSize - part.size) 0⟩

/-- How many bytes of zeros can be put behind a file, for pages that it should have. -/
def fillLimit : Nat := 0x1000000

def pagesWithin (size pageSize count : Nat) : Nat :=
  min count ((size + fillLimit) / pageSize)

def withFrames (bytes : ByteArray) (pageSize : Nat) (frames : List Frame) : ByteArray :=
  match frames.getLast? with
  | none => bytes
  | some last =>
      (List.range (pagesWithin bytes.size pageSize last.count)).foldl (fun found i =>
        match frames.reverse.find? fun f => f.page == i + 1 with
        | some f => found ++ f.content
        | none => found ++ pageOf bytes pageSize (i + 1)) ByteArray.empty

def withLog? (bytes log : ByteArray) : Option ByteArray :=
  match logContent log with
  | .unusable => none
  | .frames pageSize frames => some (withFrames bytes pageSize frames)

end Predication.Image
