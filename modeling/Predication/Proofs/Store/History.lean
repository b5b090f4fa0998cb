import Predication.Proofs.Store.Call
import Mathlib.Data.List.Induction

namespace Predication

inductive StoreEvent where
  | wrote (d : Definition)
  | removed (name : String)
  deriving DecidableEq

namespace StoreEvent

def name : StoreEvent → String
  | .wrote d => d.name
  | .removed name => name

def written? : StoreEvent → Option Definition
  | .wrote d => some d
  | .removed _ => none

theorem name_of_written? {e : StoreEvent} {d : Definition} (h : e.written? = some d) :
    d.name = e.name := by
  cases e with
  | wrote a =>
    cases h
    rfl
  | removed name => cases h

end StoreEvent

abbrev History := List StoreEvent

namespace History

def live : History → Listing
  | [] => []
  | e :: es => if ∃ a ∈ es, a.name = e.name then live es else e.written?.toList ++ live es

def last? (es : History) (name : String) : Option StoreEvent :=
  es.reverse.find? fun e => e.name == name

def standing? (es : History) (name : String) : Option Definition :=
  (es.last? name).bind StoreEvent.written?

def writes (es : History) : Nat :=
  (es.filterMap StoreEvent.written?).length

/-- A listing of all that is live, and in the order of the writes if each of them got the next row
number. -/
structure Listed (es : History) (l : Listing) : Prop where
  perm : l.Perm es.live
  ordered : es.writes ≤ RowNumber.greatest → l = es.live

end History

namespace Listing

theorem erase_append (l k : Listing) (name : String) :
    erase (l ++ k) name = l.erase name ++ k.erase name :=
  List.filter_append l k

theorem erase_written (e : StoreEvent) (name : String) :
    erase e.written?.toList name = if e.name = name then [] else e.written?.toList := by
  cases h : e.written? with
  | none => simp [erase]
  | some d =>
    have hn := StoreEvent.name_of_written? h
    by_cases hd : e.name = name <;> simp [erase, hn, hd]

theorem find?_append (l k : Listing) (name : String) :
    find? (l ++ k) name = (l.find? name).or (k.find? name) :=
  List.find?_append

theorem find?_written (e : StoreEvent) (name : String) :
    find? e.written?.toList name = if e.name = name then e.written? else none := by
  cases h : e.written? with
  | none => simp [find?]
  | some d =>
    have hn := StoreEvent.name_of_written? h
    by_cases hd : e.name = name <;> simp [find?, hn, hd]

theorem find?_erase (l : Listing) (name other : String) :
    (l.erase name).find? other = if other = name then none else l.find? other := by
  rw [find?, erase, List.find?_filter]
  by_cases h : other = name
  · subst h
    simp
  · rw [if_neg h]
    refine congrArg (fun p => List.find? p l) (funext fun d => ?_)
    by_cases hd : d.name = other
    · simp [hd, h]
    · simp [hd]

end Listing

namespace History

theorem live_concat (es : History) (a : StoreEvent) :
    live (es ++ [a]) = (live es).erase a.name ++ a.written?.toList := by
  induction es with
  | nil => simp [live, Listing.erase]
  | cons e es ih =>
    rw [List.cons_append, live, live, ih]
    by_cases hes : ∃ b ∈ es, b.name = e.name
    · have h : ∃ b ∈ es ++ [a], b.name = e.name := by
        obtain ⟨b, hb, hn⟩ := hes
        exact ⟨b, List.mem_append_left _ hb, hn⟩
      rw [if_pos hes, if_pos h]
    · rw [if_neg hes, Listing.erase_append, Listing.erase_written, List.append_assoc]
      by_cases ha : e.name = a.name
      · rw [if_pos ⟨a, by simp, ha.symm⟩, if_pos ha, List.nil_append]
      · have h : ¬ ∃ b ∈ es ++ [a], b.name = e.name := by
          rintro ⟨b, hb, hn⟩
          rcases List.mem_append.mp hb with hb | hb
          · exact hes ⟨b, hb, hn⟩
          · exact ha (List.mem_singleton.mp hb ▸ hn).symm
        rw [if_neg h, if_neg ha]

theorem last?_concat (es : History) (a : StoreEvent) (name : String) :
    last? (es ++ [a]) name = if a.name = name then some a else es.last? name := by
  rw [last?, List.reverse_concat]
  by_cases h : a.name = name
  · rw [if_pos h, List.find?_cons_of_pos (by simpa using h)]
  · rw [if_neg h, List.find?_cons_of_neg (by simpa using h)]
    rfl

theorem find?_live (es : History) (name : String) : es.live.find? name = es.standing? name := by
  induction es using List.reverseRecOn with
  | nil => rfl
  | append_singleton es a ih =>
    rw [live_concat, Listing.find?_append, Listing.find?_erase, Listing.find?_written, standing?,
      last?_concat]
    by_cases h : a.name = name
    · rw [if_pos h.symm, if_pos h, if_pos h]
      rfl
    · rw [if_neg (Ne.symm h), if_neg h, if_neg h, Option.or_none, ih]
      rfl

theorem live_wrote (es : History) (d : Definition) :
    live (es ++ [.wrote d]) = es.live.write d :=
  live_concat es (.wrote d)

theorem live_removed (es : History) (name : String) :
    live (es ++ [.removed name]) = es.live.erase name := by
  rw [live_concat]
  exact List.append_nil _

theorem writes_wrote (es : History) (d : Definition) :
    writes (es ++ [.wrote d]) = es.writes + 1 := by
  simp [writes, StoreEvent.written?]

theorem writes_removed (es : History) (name : String) :
    writes (es ++ [.removed name]) = es.writes := by
  simp [writes, StoreEvent.written?]

theorem writes_map_wrote (ds : List Definition) : writes (ds.map .wrote) = ds.length := by
  induction ds with
  | nil => rfl
  | cons d ds ih => exact congrArg Nat.succ ih

theorem live_wroteAll (es : History) (ds : List Definition) :
    live (es ++ ds.map .wrote) = ds.foldl Listing.write es.live := by
  induction ds generalizing es with
  | nil => simp
  | cons d ds ih =>
    rw [List.map_cons, List.append_cons, ih, live_wrote]
    rfl

end History

namespace DefinitionTable

structure Lists (t : DefinitionTable) (es : History) : Prop where
  wellFormed : t.WellFormed
  last_le : t.last ≤ es.writes
  listed : es.Listed t.listing

theorem lists_of_nil {t : DefinitionTable} {es : History} (ht : t.rows = []) (hl : es.live = []) :
    t.Lists es := by
  have hlisting : t.listing = [] := by simp [listing, ordered, ht]
  constructor
  case wellFormed => simp [WellFormed, ht]
  case last_le => simp [last, ht]
  case listed =>
    rw [hlisting]
    exact ⟨by rw [hl], fun _ => hl.symm⟩

variable {t : DefinitionTable} {es : History}

theorem Lists.removed (h : t.Lists es) (name : String) :
    (t.erase name).Lists (es ++ [.removed name]) := by
  constructor
  case wellFormed => exact wellFormed_erase h.wellFormed name
  case last_le =>
    rw [History.writes_removed]
    exact Nat.le_trans (t.last_erase_le name) h.last_le
  case listed =>
    rw [listing_erase]
    constructor
    case perm =>
      rw [History.live_removed]
      exact Listing.perm_erase h.listed.perm name
    case ordered =>
      intro hroom
      rw [History.writes_removed] at hroom
      rw [h.listed.ordered hroom, History.live_removed]

theorem Lists.wrote (h : t.Lists es) (d : Definition) :
    (t.put d).Lists (es ++ [.wrote d]) := by
  constructor
  case wellFormed => exact wellFormed_put h.wellFormed d
  case last_le =>
    rw [History.writes_wrote]
    exact Nat.le_trans (t.last_put_le d) (Nat.succ_le_succ h.last_le)
  case listed =>
    constructor
    case perm =>
      rw [History.live_wrote]
      exact (t.perm_listing_put d).trans (Listing.perm_write h.listed.perm d)
    case ordered =>
      intro hroom
      rw [History.writes_wrote] at hroom
      have hnext : t.HasRoom 1 := Nat.le_trans (Nat.succ_le_succ h.last_le) hroom
      rw [listing_put hnext, h.listed.ordered (Nat.le_of_succ_le hroom), History.live_wrote]

theorem Lists.wroteAll (h : t.Lists es) (ds : List Definition) :
    (Database.putRows t ds).Lists (es ++ ds.map .wrote) := by
  induction ds generalizing t es with
  | nil => exact (List.append_nil es).symm ▸ h
  | cons d ds ih =>
    rw [List.map_cons, List.append_cons]
    exact ih (h.wrote d)

end DefinitionTable

end Predication
