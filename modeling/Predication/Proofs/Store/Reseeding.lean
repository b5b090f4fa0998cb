import Predication.Proofs.Store.Refinement

namespace Predication

namespace Listing

theorem foldl_write_eq (ds : List Definition) (l : Listing) :
    ds.foldl write l =
      (l.filter fun d => ds.all fun e => d.name != e.name) ++ ds.foldl write [] := by
  induction ds using List.reverseRecOn with
  | nil => simp
  | append_singleton ds e ih =>
    rw [List.foldl_concat, ih, List.foldl_concat, write, erase_append, write, ← List.append_assoc,
      erase, List.filter_filter]
    simp [Bool.and_comm]

theorem foldl_write_again (ds : List Definition) (l : Listing) :
    ds.foldl write (ds.foldl write l) = ds.foldl write l := by
  have hgone : (ds.foldl write []).filter (fun d => ds.all fun e => d.name != e.name) = [] := by
    rw [List.filter_eq_nil_iff]
    intro d hd hall
    rcases mem_of_mem_foldl_write hd with hd | hd
    · cases hd
    · simpa using List.all_eq_true.mp hall d hd
  rw [foldl_write_eq ds (ds.foldl write l), foldl_write_eq ds l, List.filter_append, hgone,
    List.append_nil, List.filter_filter]
  simp

end Listing

namespace DefinitionTable

variable {t : DefinitionTable}

theorem listing_of_pair {a b : Row} (h : t.rows = [a, b]) :
    t.listing = if a.number ≤ b.number then [a.definition, b.definition]
      else [b.definition, a.definition] := by
  rw [listing, ordered, h]
  by_cases hab : a.number ≤ b.number <;> simp [List.mergeSort, hab]

theorem drawn_le (t : DefinitionTable) : t.drawn.val ≤ 0x4000000000000000 := by
  rw [drawn]
  exact Nat.succ_le_of_lt (Fin.isLt _)

theorem nextNumber_of_full (h : t.last = RowNumber.greatest) : t.nextNumber = t.drawn := by
  rw [nextNumber, dif_neg (by omega)]

end DefinitionTable

namespace Store

open Database (ofTables putRows)

def seeded (ds : List Definition) (db : Database) : Database :=
  (seed ds db).final db

structure Composes (xs ys : List Definition) (m : KeyMap String String) (t : DefinitionTable) :
    Prop where
  accepted : (seed xs (ofTables m t)).answer = .ok xs.length ∧
    (seed ys (seeded xs (ofTables m t))).answer = .ok ys.length ∧
    (seed (xs ++ ys) (ofTables m t)).answer = .ok (xs ++ ys).length ∧
    (seed xs (seeded xs (ofTables m t))).answer = .ok xs.length
  joined : ∃ l, (all (seeded ys (seeded xs (ofTables m t)))).answer = .ok l ∧
    (all (seeded (xs ++ ys) (ofTables m t))).answer = .ok l
  repeated : ∃ l l', (all (seeded xs (ofTables m t))).answer = .ok l ∧
    (all (seeded xs (seeded xs (ofTables m t)))).answer = .ok l' ∧ l'.Perm l ∧
    (t.HasRoom (2 * xs.length) → l' = l) ∧
    (count (seeded xs (ofTables m t))).answer = .ok l.length ∧
    (count (seeded xs (seeded xs (ofTables m t)))).answer = .ok l.length
  lastSize : (getMetadata lastSeedKey (seeded xs (seeded xs (ofTables m t)))).answer =
      .ok (some (Text.natText xs.length)) ∧
    (getMetadata lastSeedKey (seeded xs (ofTables m t))).answer =
      .ok (some (Text.natText xs.length))

variable (m : KeyMap String String) (t : DefinitionTable)

theorem perm_listing_putRows_again (ds : List Definition) :
    (putRows (putRows t ds) ds).listing.Perm (putRows t ds).listing := by
  have hagain := Database.perm_listing_putRows ds (putRows t ds)
  have honce := Database.perm_listing_putRows ds t
  have htwice := hagain.trans (Listing.perm_foldl_write honce ds)
  rw [Listing.foldl_write_again] at htwice
  exact htwice.trans honce.symm

variable {t} in
theorem listing_putRows_again {ds : List Definition} (h : t.HasRoom (2 * ds.length)) :
    (putRows (putRows t ds) ds).listing = (putRows t ds).listing := by
  rw [Nat.two_mul] at h
  rw [Database.listing_putRows (Database.hasRoom_putRows h),
    Database.listing_putRows (h.of_le (Nat.le_add_right _ _)), Listing.foldl_write_again]

theorem seeded_ofTables {ds : List Definition} (h : Acceptable ds) :
    seeded ds (ofTables m t) =
      ofTables (m.insert lastSeedKey (Text.natText ds.length)) (putRows t ds) := by
  rw [seeded, seed_of_acceptable h]
  rfl

theorem answer_count : (count (ofTables m t)).answer = .ok t.listing.length := by
  rw [DefinitionTable.length_listing]
  rfl

theorem answer_lastSeed (size : String) :
    (getMetadata lastSeedKey (ofTables (m.insert lastSeedKey size) t)).answer =
      .ok (some size) := by
  rw [getMetadata_ofTables, KeyMap.get?_insert, if_pos rfl]

theorem acceptable_append {xs ys : List Definition} (hx : Acceptable xs) (hy : Acceptable ys) :
    Acceptable (xs ++ ys) :=
  List.forall_mem_append.mpr ⟨hx, hy⟩

theorem seed_composes {xs ys : List Definition} (hx : Acceptable xs) (hy : Acceptable ys) :
    Composes xs ys m t := by
  have hxy := acceptable_append hx hy
  have honce := seeded_ofTables m t hx
  have hboth := seeded_ofTables m t hxy
  have hthen := seeded_ofTables (m.insert lastSeedKey (Text.natText xs.length)) (putRows t xs) hy
  have htwice := seeded_ofTables (m.insert lastSeedKey (Text.natText xs.length)) (putRows t xs) hx
  constructor
  case accepted =>
    rw [honce, seed_of_acceptable hx, seed_of_acceptable hy, seed_of_acceptable hxy,
      seed_of_acceptable hx]
    exact ⟨rfl, rfl, rfl, rfl⟩
  case joined =>
    rw [honce, hthen, hboth, Database.putRows_append]
    exact ⟨(putRows t (xs ++ ys)).listing, all_ofTables _ _, all_ofTables _ _⟩
  case repeated =>
    have hperm := perm_listing_putRows_again t xs
    rw [honce, htwice]
    refine ⟨_, _, all_ofTables _ _, all_ofTables _ _, hperm, listing_putRows_again,
      answer_count _ _, ?_⟩
    rw [answer_count, hperm.length_eq]
  case lastSize =>
    rw [honce, htwice]
    exact ⟨answer_lastSeed _ _ _, answer_lastSeed _ _ _⟩

theorem seed_composes_repeated_names :
    Acceptable [⟨"b", "Predicate", "1"⟩, ⟨"c", "Scope", ""⟩, ⟨"b", "Scope", " 2.5 -inf"⟩] ∧
    Acceptable [⟨"c", "Scope", "nan"⟩, ⟨"a", "Thing", "0"⟩] ∧
    Composes [⟨"b", "Predicate", "1"⟩, ⟨"c", "Scope", ""⟩, ⟨"b", "Scope", " 2.5 -inf"⟩]
      [⟨"c", "Scope", "nan"⟩, ⟨"a", "Thing", "0"⟩] []
      { rows := [⟨7, "b", "Thing", none⟩, ⟨3, "a", "Thing", some "x"⟩] } ∧
    DefinitionTable.HasRoom
      { rows := [⟨7, "b", "Thing", none⟩, ⟨3, "a", "Thing", some "x"⟩] } (2 * 3) := by
  have hx : Acceptable
      [⟨"b", "Predicate", "1"⟩, ⟨"c", "Scope", ""⟩, ⟨"b", "Scope", " 2.5 -inf"⟩] := by
    decide +kernel
  have hy : Acceptable [⟨"c", "Scope", "nan"⟩, ⟨"a", "Thing", "0"⟩] := by
    decide +kernel
  exact ⟨hx, hy, seed_composes _ _ hx hy, by decide⟩

def almostFull (draws : List Draw) : DefinitionTable where
  rows := [⟨0x7ffffffffffffffe, "z", "c", some ""⟩]
  draws := draws

theorem rows_almostFull_put (draws : List Draw) : ((almostFull draws).put ⟨"a", "c", ""⟩).rows =
    [⟨0x7ffffffffffffffe, "z", "c", some ""⟩, ⟨0x7fffffffffffffff, "a", "c", some ""⟩] := by
  have hlast : (almostFull draws).last = 0x7ffffffffffffffe := rfl
  have hroom : (almostFull draws).HasRoom 1 := by
    rw [DefinitionTable.HasRoom, hlast]
    decide
  have hnumber : (almostFull draws).nextNumber = 0x7fffffffffffffff :=
    Fin.ext (DefinitionTable.val_nextNumber hroom)
  rw [DefinitionTable.put, hnumber]
  rfl

theorem rows_almostFull_put_put (draws : List Draw) :
    (((almostFull draws).put ⟨"a", "c", ""⟩).put ⟨"a", "c", ""⟩).rows =
      [⟨0x7ffffffffffffffe, "z", "c", some ""⟩,
        ⟨((almostFull draws).put ⟨"a", "c", ""⟩).drawn, "a", "c", some ""⟩] := by
  have hfull : ((almostFull draws).put ⟨"a", "c", ""⟩).last = RowNumber.greatest := rfl
  rw [DefinitionTable.put, DefinitionTable.nextNumber_of_full hfull, DefinitionTable.erase,
    rows_almostFull_put]
  rfl

/-- A definition is listed last when it is written once, and first when it is written twice: the
number of its row is drawn then, for the largest one is taken. -/
theorem seed_twice_reorders :
    Acceptable [⟨"a", "c", ""⟩] ∧ ∀ draws,
      (all (seeded [⟨"a", "c", ""⟩] (ofTables [] (almostFull draws)))).answer =
        .ok [⟨"z", "c", ""⟩, ⟨"a", "c", ""⟩] ∧
      (all (seeded [⟨"a", "c", ""⟩] (seeded [⟨"a", "c", ""⟩]
        (ofTables [] (almostFull draws))))).answer = .ok [⟨"a", "c", ""⟩, ⟨"z", "c", ""⟩] := by
  have ha : Acceptable [⟨"a", "c", ""⟩] := by decide
  refine ⟨ha, fun draws => ?_⟩
  have hdrawn := ((almostFull draws).put ⟨"a", "c", ""⟩).drawn_le
  have honce := DefinitionTable.listing_of_pair (rows_almostFull_put draws)
  have htwice := DefinitionTable.listing_of_pair (rows_almostFull_put_put draws)
  rw [if_pos (by decide)] at honce
  rw [if_neg (by rw [Fin.le_def]; simp; omega)] at htwice
  rw [seeded_ofTables _ _ ha, seeded_ofTables _ _ ha, all_ofTables, all_ofTables]
  exact ⟨congrArg Except.ok honce, congrArg Except.ok htwice⟩

end Store

end Predication
