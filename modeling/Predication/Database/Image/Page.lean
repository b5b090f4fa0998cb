/-!
Pages of a database file. The rows of a table are in the leaves of a tree of pages, and the entries
of an index in all the pages of one. What does not fit into its page goes on in a chain of further
pages.
-/

namespace Predication.Image

inductive Encoding where
  | utf8
  | utf16LittleEndian
  | utf16BigEndian
  deriving DecidableEq

/-- The bytes of a file in pages of one size. The usable bytes of a page come first; what follows
them is reserved. -/
structure PagedFile where
  bytes : ByteArray
  pageSize : Nat
  usable : Nat
  pageCount : Nat
  encoding : Encoding

structure StoredRow where
  number : Int
  record : ByteArray

def byteAt? (b : ByteArray) (i : Nat) : Option Nat :=
  if h : i < b.size then some b[i].toNat else none

def number? (b : ByteArray) (start width : Nat) : Option Nat :=
  (List.range width).foldlM (fun n i => (byteAt? b (start + i)).map (256 * n + ·)) 0

/-- A number in groups of seven bits, each byte but the last with its high bit set. The byte after
`left` of them counts in full and is the last one. -/
def varintFrom (b : ByteArray) : Nat → Nat → Nat → Option (Nat × Nat)
  | 0, n, i => (byteAt? b i).map fun x => (256 * n + x, i + 1)
  | left + 1, n, i =>
      match byteAt? b i with
      | none => none
      | some x =>
          if x < 128 then some (128 * n + x, i + 1)
          else varintFrom b left (128 * n + (x - 128)) (i + 1)

def varint? (b : ByteArray) (i : Nat) : Option (Nat × Nat) :=
  varintFrom b 8 0 i

def signed (n : Nat) : Int :=
  if n < 0x8000000000000000 then n else (n : Int) - 0x10000000000000000

namespace PagedFile

/-- A page by its number, the first being 1; zeros fill a page that the file does not fill. -/
def page? (f : PagedFile) (n : Nat) : Option ByteArray :=
  if 1 ≤ n ∧ n ≤ f.pageCount then
    let part := f.bytes.extract ((n - 1) * f.pageSize) (n * f.pageSize)
    some ⟨part.data ++ Array.replicate (f.pageSize - part.size) 0⟩
  else none

def treeStart (n : Nat) : Nat :=
  if n = 1 then 100 else 0

def rowLimit (f : PagedFile) : Nat :=
  f.usable - 35

def entryLimit (f : PagedFile) : Nat :=
  (f.usable - 12) * 64 / 255 - 23

/-- The bytes of a record of the given size that are in its page, which has a limit for them. -/
def localSize (f : PagedFile) (limit size : Nat) : Nat :=
  if size ≤ limit then size
  else
    let least := (f.usable - 12) * 32 / 255 - 23
    let most := least + (size - least) % (f.usable - 4)
    if most ≤ limit then most else least

def overflow? (f : PagedFile) : Nat → Nat → Nat → Option (List UInt8)
  | _, _, 0 => some []
  | 0, _, _ => none
  | fuel + 1, n, left + 1 => do
      let page ← f.page? n
      let next ← number? page 0 4
      let part := (page.extract 4 (4 + min (left + 1) (f.usable - 4))).toList
      let rest ← f.overflow? fuel next (left + 1 - part.length)
      return part ++ rest

def record? (f : PagedFile) (limit : Nat) (page : ByteArray) (start size : Nat) :
    Option ByteArray :=
  let inLeaf := f.localSize limit size
  let part := page.extract start (start + inLeaf)
  if part.size < inLeaf then none
  else if inLeaf = size then some part
  else do
    let next ← number? page (start + inLeaf) 4
    let rest ← f.overflow? f.pageCount next (size - inLeaf)
    return ⟨part.data ++ rest.toArray⟩

def row? (f : PagedFile) (page : ByteArray) (cell : Nat) : Option StoredRow := do
  let (size, i) ← varint? page cell
  let (number, i) ← varint? page i
  let record ← f.record? f.rowLimit page i size
  return ⟨signed number, record⟩

def entry? (f : PagedFile) (page : ByteArray) (cell : Nat) : Option ByteArray := do
  let (size, i) ← varint? page cell
  f.record? f.entryLimit page i size

def cells? (page : ByteArray) (start count : Nat) : Option (List Nat) :=
  (List.range count).mapM fun i => (number? page (start + 2 * i) 2).map (· % page.size)

def rows? (f : PagedFile) : Nat → Nat → Option (List StoredRow)
  | 0, _ => none
  | depth + 1, n => do
      let page ← f.page? n
      let start := treeStart n
      let kind ← byteAt? page start
      let count ← number? page (start + 3) 2
      if kind = 13 then
        (← cells? page (start + 8) count).mapM (f.row? page)
      else if kind = 5 then
        let children ← (← cells? page (start + 12) count).mapM fun cell => number? page cell 4
        let last ← number? page (start + 8) 4
        return (← (children ++ [last]).mapM (f.rows? depth)).flatten
      else none

/-- The entries of the index whose tree starts at a page, in their order. An entry of an inner page
stands behind those of the page below it. -/
def entries? (f : PagedFile) : Nat → Nat → Option (List ByteArray)
  | 0, _ => none
  | depth + 1, n => do
      let page ← f.page? n
      let start := treeStart n
      let kind ← byteAt? page start
      let count ← number? page (start + 3) 2
      if kind = 10 then
        (← cells? page (start + 8) count).mapM (f.entry? page)
      else if kind = 2 then
        let parts ← (← cells? page (start + 12) count).mapM fun cell => do
          let below ← f.entries? depth (← number? page cell 4)
          return below ++ [← f.entry? page (cell + 4)]
        let last ← f.entries? depth (← number? page (start + 8) 4)
        return parts.flatten ++ last
      else none

def maxDepth : Nat := 20

def table? (f : PagedFile) (root : Nat) : Option (List StoredRow) :=
  f.rows? maxDepth root

def index? (f : PagedFile) (root : Nat) : Option (List ByteArray) :=
  f.entries? maxDepth root

end PagedFile

end Predication.Image
