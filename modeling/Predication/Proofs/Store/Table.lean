import Predication.Database
import Mathlib.Data.List.Nodup

namespace Predication

abbrev Listing := List Definition

namespace Listing

def erase (l : Listing) (name : String) : Listing :=
  l.filter fun d => d.name != name

def write (l : Listing) (d : Definition) : Listing :=
  l.erase d.name ++ [d]

def find? (l : Listing) (name : String) : Option Definition :=
  List.find? (fun d => d.name == name) l

def Distinct (l : Listing) : Prop :=
  (l.map Definition.name).Nodup

theorem isSome_find? (l : Listing) (name : String) :
    (l.find? name).isSome = decide (∃ d ∈ l, d.name = name) := by
  rw [find?, List.isSome_find?, Bool.eq_iff_iff]
  simp

theorem Distinct.find?_eq_some {l : Listing} (h : l.Distinct) {name : String} {d : Definition} :
    l.find? name = some d ↔ d ∈ l ∧ d.name = name := by
  constructor
  · intro hd
    exact ⟨List.mem_of_find?_eq_some hd, by simpa using List.find?_some hd⟩
  · rintro ⟨hd, hn⟩
    obtain ⟨e, he⟩ : ∃ e, l.find? name = some e := by
      rw [← Option.isSome_iff_exists, isSome_find?]
      exact decide_eq_true ⟨d, hd, hn⟩
    have hname : e.name = name := by simpa using List.find?_some he
    rw [he, List.inj_on_of_nodup_map h (List.mem_of_find?_eq_some he) hd (hname.trans hn.symm)]

section Perm

variable {l k : Listing} (h : l.Perm k)
include h

theorem distinct_of_perm (hl : l.Distinct) : k.Distinct :=
  (h.map Definition.name).nodup_iff.mp hl

theorem find?_of_perm (hl : l.Distinct) (name : String) : l.find? name = k.find? name :=
  Option.ext fun d => by
    rw [hl.find?_eq_some, (distinct_of_perm h hl).find?_eq_some, h.mem_iff]

theorem perm_erase (name : String) : (l.erase name).Perm (k.erase name) :=
  h.filter _

theorem perm_write (d : Definition) : (l.write d).Perm (k.write d) :=
  (perm_erase h d.name).append_right [d]

theorem perm_foldl_write (ds : List Definition) : (ds.foldl write l).Perm (ds.foldl write k) := by
  induction ds generalizing l k with
  | nil => exact h
  | cons d ds ih => exact ih (perm_write h d)

end Perm

theorem mem_of_mem_write {l : Listing} {d e : Definition} (h : e ∈ l.write d) : e ∈ l ∨ e = d := by
  rcases List.mem_append.mp h with h | h
  · exact .inl (List.mem_filter.mp h).1
  · exact .inr (List.mem_singleton.mp h)

theorem mem_of_mem_foldl_write {ds : List Definition} {l : Listing} {e : Definition}
    (h : e ∈ ds.foldl write l) : e ∈ l ∨ e ∈ ds := by
  induction ds generalizing l with
  | nil => exact .inl h
  | cons d ds ih =>
    rcases ih h with h | h
    · rcases mem_of_mem_write h with h | rfl
      · exact .inl h
      · exact .inr List.mem_cons_self
    · exact .inr (List.mem_cons_of_mem d h)

end Listing

namespace Row

def precedes (a b : Row) : Bool :=
  a.number ≤ b.number

theorem precedes_trans (a b c : Row) (hab : a.precedes b) (hbc : b.precedes c) : a.precedes c :=
  decide_eq_true (Nat.le_trans (of_decide_eq_true hab) (of_decide_eq_true hbc))

theorem precedes_total (a b : Row) : (a.precedes b || b.precedes a) = true := by
  simpa [precedes] using Fin.le_total a.number b.number

theorem exists_mergeSort_cons (a : Row) (rows : List Row) : ∃ before after,
    (a :: rows).mergeSort precedes = before ++ a :: after ∧
    rows.mergeSort precedes = before ++ after ∧
    (∀ b ∈ before, a.precedes b = false) ∧ ∀ b ∈ after, a.precedes b = true := by
  obtain ⟨before, after, hcons, hrows, hbefore⟩ :=
    List.mergeSort_cons precedes_trans precedes_total a rows
  have hsorted := List.pairwise_mergeSort precedes_trans precedes_total (a :: rows)
  rw [hcons] at hsorted
  refine ⟨before, after, hcons, hrows, fun b hb => by simpa using hbefore b hb, ?_⟩
  exact (List.pairwise_cons.mp (List.pairwise_append.mp hsorted).2.1).1

theorem filter_precedes {a : Row} {before after : List Row}
    (hbefore : ∀ b ∈ before, a.precedes b = false) (hafter : ∀ b ∈ after, a.precedes b = true) :
    (before ++ after).filter (fun b => !a.precedes b) = before ∧
      (before ++ after).filter a.precedes = after := by
  constructor
  · rw [List.filter_append, List.filter_eq_self.mpr (by simpa using hbefore),
      List.filter_eq_nil_iff.mpr (by simpa using hafter), List.append_nil]
  · rw [List.filter_append, List.filter_eq_nil_iff.mpr (by simpa using hbefore),
      List.filter_eq_self.mpr hafter, List.nil_append]

theorem mergeSort_cons_of_append {a : Row} {rows before after : List Row}
    (h : rows.mergeSort precedes = before ++ after)
    (hbefore : ∀ b ∈ before, a.precedes b = false) (hafter : ∀ b ∈ after, a.precedes b = true) :
    (a :: rows).mergeSort precedes = before ++ a :: after := by
  obtain ⟨front, rest, hcons, hrows, hfront, hrest⟩ := exists_mergeSort_cons a rows
  have heq : front ++ rest = before ++ after := hrows.symm.trans h
  obtain ⟨hf, hr⟩ := filter_precedes hfront hrest
  obtain ⟨hb, ha⟩ := filter_precedes hbefore hafter
  have hfront_eq : front = before := by rw [← hf, heq, hb]
  have hrest_eq : rest = after := by rw [← hr, heq, ha]
  rw [hcons, hfront_eq, hrest_eq]

theorem mergeSort_filter (p : Row → Bool) (rows : List Row) :
    (rows.filter p).mergeSort precedes = (rows.mergeSort precedes).filter p := by
  induction rows with
  | nil => simp
  | cons a rows ih =>
    obtain ⟨before, after, hcons, hrows, hbefore, hafter⟩ := exists_mergeSort_cons a rows
    rw [hrows, List.filter_append] at ih
    rw [hcons, List.filter_append]
    by_cases hp : p a
    · rw [List.filter_cons_of_pos hp, List.filter_cons_of_pos hp]
      refine mergeSort_cons_of_append ih ?_ ?_
      · intro b hb
        exact hbefore b (List.mem_filter.mp hb).1
      · intro b hb
        exact hafter b (List.mem_filter.mp hb).1
    · rw [List.filter_cons_of_neg hp, List.filter_cons_of_neg hp, ih]

theorem mergeSort_concat {rows : List Row} {last : Row} (h : ∀ a ∈ rows, a.precedes last) :
    (rows ++ [last]).mergeSort precedes = rows.mergeSort precedes ++ [last] := by
  induction rows with
  | nil => simp
  | cons a rows ih =>
    obtain ⟨ha, hrows⟩ := List.forall_mem_cons.mp h
    obtain ⟨before, after, hcons, hsplit, hbefore, hafter⟩ := exists_mergeSort_cons a rows
    have hlast := ih hrows
    rw [hsplit, List.append_assoc] at hlast
    rw [hcons, List.append_assoc, List.cons_append, List.cons_append]
    refine mergeSort_cons_of_append hlast hbefore ?_
    intro b hb
    rcases List.mem_append.mp hb with hb | hb
    · exact hafter b hb
    · exact List.mem_singleton.mp hb ▸ ha

end Row

namespace DefinitionTable

/-- The definitions as they are listed: by ascending row number, wherever the rows stand. -/
def listing (t : DefinitionTable) : Listing :=
  t.ordered.map Row.definition

def WellFormed (t : DefinitionTable) : Prop :=
  (t.rows.map Row.name).Nodup

/-- So many rows get a number without a draw. -/
def HasRoom (t : DefinitionTable) (n : Nat) : Prop :=
  t.last + n ≤ RowNumber.greatest

instance (t : DefinitionTable) (n : Nat) : Decidable (t.HasRoom n) :=
  inferInstanceAs (Decidable (t.last + n ≤ RowNumber.greatest))

theorem perm_listing (t : DefinitionTable) : t.listing.Perm (t.rows.map Row.definition) :=
  (List.mergeSort_perm t.rows _).map _

theorem length_listing (t : DefinitionTable) : t.listing.length = t.rows.length := by
  rw [t.perm_listing.length_eq, List.length_map]

theorem WellFormed.distinct {t : DefinitionTable} (h : t.WellFormed) : t.listing.Distinct := by
  have hnames : (t.listing.map Definition.name).Perm (t.rows.map Row.name) := by
    have hp := t.perm_listing.map Definition.name
    rwa [List.map_map] at hp
  exact hnames.nodup_iff.mpr h

theorem listing_erase (t : DefinitionTable) (name : String) :
    (t.erase name).listing = t.listing.erase name := by
  have ho : (t.erase name).ordered = t.ordered.filter fun r => r.name != name :=
    Row.mergeSort_filter _ _
  rw [listing, ho, listing, Listing.erase, List.filter_map]
  rfl

theorem find?_listing {t : DefinitionTable} (h : t.WellFormed) (name : String) :
    (t.find? name).map Row.definition = t.listing.find? name := by
  rw [Listing.find?_of_perm t.perm_listing h.distinct, Listing.find?, List.find?_map]
  rfl

theorem foldl_max_le_iff {rows : List Row} {m n : Nat} :
    rows.foldl (fun n r => max n r.number.val) m ≤ n ↔ m ≤ n ∧ ∀ r ∈ rows, r.number.val ≤ n := by
  induction rows generalizing m with
  | nil => simp
  | cons r rows ih => rw [List.foldl_cons, ih, Nat.max_le, List.forall_mem_cons, and_assoc]

theorem last_le_iff {t : DefinitionTable} {n : Nat} :
    t.last ≤ n ↔ ∀ r ∈ t.rows, r.number.val ≤ n := by
  rw [last, foldl_max_le_iff]
  exact and_iff_right (Nat.zero_le n)

theorem le_last {t : DefinitionTable} {r : Row} (h : r ∈ t.rows) : r.number.val ≤ t.last :=
  last_le_iff.mp (Nat.le_refl t.last) r h

theorem last_erase_le (t : DefinitionTable) (name : String) : (t.erase name).last ≤ t.last :=
  last_le_iff.mpr fun _ hr => le_last (List.mem_filter.mp hr).1

theorem val_nextNumber {t : DefinitionTable} (h : t.HasRoom 1) :
    t.nextNumber.val = t.last + 1 := by
  rw [nextNumber, dif_pos (Nat.lt_of_succ_le h)]

theorem nextNumber_le (t : DefinitionTable) : t.nextNumber.val ≤ t.last + 1 := by
  rw [nextNumber]
  split
  · exact Nat.le_refl _
  · next h =>
    have hlt := t.drawn.isLt
    simp only [RowNumber.greatest] at h
    omega

theorem last_put_le (t : DefinitionTable) (d : Definition) : (t.put d).last ≤ t.last + 1 := by
  rw [last_le_iff]
  intro r hr
  rcases List.mem_append.mp hr with hr | hr
  · exact Nat.le_succ_of_le (le_last (List.mem_filter.mp hr).1)
  · rw [List.mem_singleton.mp hr]
    exact t.nextNumber_le

theorem HasRoom.of_le {t : DefinitionTable} {n k : Nat} (h : t.HasRoom n) (hk : k ≤ n) :
    t.HasRoom k :=
  Nat.le_trans (Nat.add_le_add_left hk _) h

theorem HasRoom.put {t : DefinitionTable} {n : Nat} (h : t.HasRoom (n + 1)) (d : Definition) :
    (t.put d).HasRoom n := by
  have hle := t.last_put_le d
  rw [HasRoom] at h ⊢
  omega

theorem listing_put {t : DefinitionTable} (h : t.HasRoom 1) (d : Definition) :
    (t.put d).listing = t.listing.write d := by
  have hlast : ∀ r ∈ (t.erase d.name).rows,
      r.precedes ⟨t.nextNumber, d.name, d.category, some d.embedding⟩ := by
    intro r hr
    refine decide_eq_true (Fin.le_def.mpr ?_)
    rw [val_nextNumber h]
    exact Nat.le_succ_of_le (le_last (List.mem_filter.mp hr).1)
  have ho : (t.put d).ordered = (t.erase d.name).ordered ++
      [⟨t.nextNumber, d.name, d.category, some d.embedding⟩] := Row.mergeSort_concat hlast
  rw [Listing.write, ← listing_erase, listing, ho, List.map_append]
  rfl

theorem erase_listing_put (t : DefinitionTable) (d : Definition) :
    (t.put d).listing.erase d.name = t.listing.erase d.name := by
  have hrows : ((t.put d).erase d.name).rows = (t.erase d.name).rows := by
    simp [put, erase, List.filter_append, List.filter_filter]
  rw [← listing_erase, ← listing_erase, listing, ordered, hrows]
  rfl

theorem perm_listing_put (t : DefinitionTable) (d : Definition) :
    (t.put d).listing.Perm (t.listing.write d) := by
  refine (t.put d).perm_listing.trans ?_
  have hrows : (t.put d).rows.map Row.definition =
      (t.erase d.name).rows.map Row.definition ++ [d] := List.map_append
  rw [hrows, Listing.write, ← listing_erase]
  exact ((t.erase d.name).perm_listing.symm).append_right [d]

theorem wellFormed_erase {t : DefinitionTable} (h : t.WellFormed) (name : String) :
    (t.erase name).WellFormed :=
  List.Nodup.sublist (List.filter_sublist.map _) h

theorem wellFormed_put {t : DefinitionTable} (h : t.WellFormed) (d : Definition) :
    (t.put d).WellFormed := by
  have hfresh : d.name ∉ (t.erase d.name).rows.map Row.name := by
    rw [List.mem_map]
    rintro ⟨r, hr, hn⟩
    simpa [hn] using (List.mem_filter.mp hr).2
  have hnames : (t.put d).rows.map Row.name = (t.erase d.name).rows.map Row.name ++ [d.name] :=
    List.map_append
  rw [WellFormed, hnames, List.nodup_append]
  refine ⟨wellFormed_erase h d.name, List.nodup_singleton _, ?_⟩
  intro a ha b hb
  rw [List.mem_singleton.mp hb]
  exact fun he => hfresh (he ▸ ha)

end DefinitionTable

end Predication
