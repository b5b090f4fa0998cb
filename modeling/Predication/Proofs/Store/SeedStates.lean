import Predication.Proofs.Store.Refinement

namespace Predication.Store

open Database (ofTables putRows)

def seedStates : List (List Definition) → Database → List Database
  | [], _ => []
  | ds :: rest, db => (seed ds db).commits ++ seedStates rest ((seed ds db).final db)

def lastSize (batches : List (List Definition)) : Option String :=
  batches.getLast?.map fun ds => Text.natText ds.length

theorem lastSize_cons (ds : List Definition) (rest : List (List Definition)) :
    lastSize (ds :: rest) = (lastSize rest).or (some (Text.natText ds.length)) := by
  rw [lastSize, lastSize, List.getLast?_cons]
  cases rest.getLast? with
  | none => rfl
  | some last => rfl

section

variable (m : KeyMap String String) (t : DefinitionTable)

theorem seedStates_cons_of_acceptable {ds : List Definition} (h : Acceptable ds)
    (rest : List (List Definition)) :
    seedStates (ds :: rest) (ofTables m t) =
      ofTables m (putRows t ds) ::
      ofTables (m.insert lastSeedKey (Text.natText ds.length)) (putRows t ds) ::
      seedStates rest
        (ofTables (m.insert lastSeedKey (Text.natText ds.length)) (putRows t ds)) := by
  rw [seedStates, seed_of_acceptable h]
  rfl

theorem seedStates_cons_of_not_acceptable {ds : List Definition} (h : ¬ Acceptable ds)
    (rest : List (List Definition)) :
    seedStates (ds :: rest) (ofTables m t) = seedStates rest (ofTables m t) := by
  obtain ⟨reason, hs⟩ := seed_of_not_acceptable h m t
  rw [seedStates, hs]
  rfl

theorem seedStates_filter (batches : List (List Definition)) :
    seedStates batches (ofTables m t) =
      seedStates (batches.filter fun ds => Acceptable ds) (ofTables m t) := by
  induction batches generalizing m t with
  | nil => rfl
  | cons ds rest ih =>
    by_cases h : Acceptable ds
    · rw [List.filter_cons, if_pos (decide_eq_true h), seedStates_cons_of_acceptable m t h,
        seedStates_cons_of_acceptable m t h, ih]
    · rw [List.filter_cons, if_neg (by simpa using h), seedStates_cons_of_not_acceptable m t h, ih]

variable {batches : List (List Definition)} (h : ∀ ds ∈ batches, Acceptable ds)
include h

theorem length_seedStates : (seedStates batches (ofTables m t)).length = 2 * batches.length := by
  induction batches generalizing m t with
  | nil => rfl
  | cons ds rest ih =>
    have hds : Acceptable ds := h ds List.mem_cons_self
    have hrest := fun m t => ih m t fun es hes => h es (List.mem_cons_of_mem ds hes)
    rw [seedStates_cons_of_acceptable m t hds, List.length_cons, List.length_cons, hrest,
      List.length_cons]
    omega

theorem tables_of_seedStates {i : Nat} {db : Database}
    (hi : (seedStates batches (ofTables m t))[i]? = some db) :
    ∃ m', db = ofTables m' (putRows t (batches.take (i / 2 + 1)).flatten) := by
  induction batches generalizing m t i with
  | nil => cases hi
  | cons ds rest ih =>
    have hds : Acceptable ds := h ds List.mem_cons_self
    rw [seedStates_cons_of_acceptable m t hds] at hi
    match i with
    | 0 =>
      cases hi
      exact ⟨m, by simp⟩
    | 1 =>
      cases hi
      exact ⟨m.insert lastSeedKey (Text.natText ds.length), by simp⟩
    | i + 2 =>
      obtain ⟨m', hm'⟩ := ih _ _ (fun es hes => h es (List.mem_cons_of_mem ds hes)) hi
      have hhalf : (i + 2) / 2 + 1 = i / 2 + 1 + 1 := by omega
      rw [Database.putRows_append] at hm'
      exact ⟨m', by rw [hm', hhalf, List.take_succ_cons, List.flatten_cons]⟩

theorem entry_of_seedStates {i : Nat} {db : Database}
    (hi : (seedStates batches (ofTables m t))[i]? = some db) :
    (getMetadata lastSeedKey db).answer =
      .ok ((lastSize (batches.take ((i + 1) / 2))).or (m.get? lastSeedKey)) := by
  induction batches generalizing m t i with
  | nil => cases hi
  | cons ds rest ih =>
    have hds : Acceptable ds := h ds List.mem_cons_self
    rw [seedStates_cons_of_acceptable m t hds] at hi
    match i with
    | 0 =>
      cases hi
      rfl
    | 1 =>
      cases hi
      rw [getMetadata_ofTables, KeyMap.get?_insert, if_pos rfl]
      rfl
    | i + 2 =>
      have hrest := ih _ _ (fun es hes => h es (List.mem_cons_of_mem ds hes)) hi
      have hhalf : (i + 2 + 1) / 2 = (i + 1) / 2 + 1 := by omega
      rw [hrest, hhalf, List.take_succ_cons, lastSize_cons, KeyMap.get?_insert, if_pos rfl]
      cases lastSize (rest.take ((i + 1) / 2)) with
      | none => rfl
      | some size => rfl

end

/-- The states that batches commit, two for each: in both there are the rows of the batches so far,
but only the second one has the entry of the last of them. -/
structure TwoCommits (batches : List (List Definition)) (states : List Database) : Prop where
  length : states.length = 2 * batches.length
  rows : ∀ i db, states[i]? = some db → ∃ l, (all db).answer = .ok l ∧
    History.Listed ((batches.take (i / 2 + 1)).flatten.map .wrote) l
  entry_behind : ∀ k db, states[2 * k]? = some db →
    (getMetadata lastSeedKey db).answer = .ok (lastSize (batches.take k))
  entry_in_step : ∀ k db, states[2 * k + 1]? = some db →
    (getMetadata lastSeedKey db).answer = .ok (lastSize (batches.take (k + 1)))

theorem twoCommits_seedStates (batches : List (List Definition)) :
    TwoCommits (batches.filter fun ds => Acceptable ds) (seedStates batches opened) := by
  obtain ⟨m, t, ho, ht, -⟩ := records_opened.tables
  have hm : m.get? lastSeedKey = none := by
    have hmeta : opened.metadata = some m := by
      rw [ho]
      rfl
    cases hmeta
    decide
  have hdone : ∀ ds ∈ batches.filter fun ds => Acceptable ds, Acceptable ds := by
    intro ds hds
    exact of_decide_eq_true (List.mem_filter.mp hds).2
  rw [ho, seedStates_filter]
  constructor
  case length => exact length_seedStates m t hdone
  case rows =>
    intro i db hi
    obtain ⟨m', rfl⟩ := tables_of_seedStates m t hdone hi
    exact ⟨_, all_ofTables _ _, (ht.wroteAll _).listed⟩
  case entry_behind =>
    intro k db hk
    have hhalf : (2 * k + 1) / 2 = k := by omega
    rw [entry_of_seedStates m t hdone hk, hm, Option.or_none, hhalf]
  case entry_in_step =>
    intro k db hk
    have hhalf : (2 * k + 1 + 1) / 2 = k + 1 := by omega
    rw [entry_of_seedStates m t hdone hk, hm, Option.or_none, hhalf]

theorem rows_without_entry : ∃ db ∈ seedStates [[⟨"a", "b", ""⟩]] opened,
    (all db).answer = .ok [⟨"a", "b", ""⟩] ∧ (getMetadata lastSeedKey db).answer = .ok none := by
  have ha : Acceptable [⟨"a", "b", ""⟩] := by decide
  have hempty : DefinitionTable.Lists { categoryIndex := true } [] :=
    DefinitionTable.lists_of_nil rfl rfl
  have hlists := hempty.wroteAll [⟨"a", "b", ""⟩]
  rw [opened_eq, seedStates_cons_of_acceptable _ _ ha]
  exact ⟨_, List.mem_cons_self, congrArg Except.ok (hlists.listed.ordered (by decide)), rfl⟩

end Predication.Store
