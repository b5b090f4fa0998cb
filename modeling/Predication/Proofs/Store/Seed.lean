import Predication.Proofs.Embedding.Reading
import Predication.Proofs.Store.Refinement

namespace Predication

namespace Store

open Database (ofTables putRows)

def FirstBad (ds : List Definition) (d : Definition) (token : String) : Prop :=
  ∃ before after, ds = before ++ d :: after ∧ (∀ b ∈ before, b.vector.isOk) ∧
    Embedding.FirstBad d.embedding token

theorem checkEmbeddings_of_ok {d : Definition} (h : d.vector.isOk) (ds : List Definition) :
    checkEmbeddings (d :: ds) = checkEmbeddings ds := by
  rw [checkEmbeddings]
  cases hv : d.vector with
  | error e =>
    rw [hv] at h
    cases h
  | ok v => rfl

theorem checkEmbeddings_of_firstBad {ds : List Definition} {d : Definition} {token : String}
    (h : FirstBad ds d token) :
    checkEmbeddings ds = .error (.invalid (.badEmbedding d.name ⟨token⟩)) := by
  obtain ⟨before, after, rfl, hok, hbad⟩ := h
  induction before with
  | nil =>
    have hv : d.vector = .error ⟨token⟩ := (Embedding.parse_eq_error_iff _ _).mpr hbad
    rw [List.nil_append, checkEmbeddings, hv]
  | cons b before ih =>
    rw [List.cons_append, checkEmbeddings_of_ok (hok b List.mem_cons_self)]
    exact ih fun c hc => hok c (List.mem_cons_of_mem b hc)

theorem exists_firstBad {ds : List Definition} (h : ∃ d ∈ ds, ¬ d.vector.isOk) :
    ∃ d token, FirstBad ds d token := by
  induction ds with
  | nil =>
    obtain ⟨d, hd, -⟩ := h
    cases hd
  | cons b ds ih =>
    cases hv : b.vector with
    | error e => exact ⟨b, e.token, [], ds, rfl, by simp, (Embedding.parse_eq_error_iff _ _).mp hv⟩
    | ok v =>
      have hb : b.vector.isOk := by
        rw [hv]
        rfl
      have hds : ∃ d ∈ ds, ¬ d.vector.isOk := by
        obtain ⟨d, hd, hn⟩ := h
        rcases List.mem_cons.mp hd with rfl | hd
        · exact absurd hb hn
        · exact ⟨d, hd, hn⟩
      obtain ⟨d, token, before, after, rfl, hok, hbad⟩ := ih hds
      refine ⟨d, token, b :: before, after, rfl, ?_, hbad⟩
      intro c hc
      rcases List.mem_cons.mp hc with rfl | hc
      · exact hb
      · exact hok c hc

def upsertEach (ds : List Definition) (db : Database) : Database :=
  ds.foldl (fun db d => (upsert d db).final db) db

theorem upsertEach_ofTables {ds : List Definition} (h : ∀ d ∈ ds, d.name ≠ "")
    (m : KeyMap String String) (t : DefinitionTable) :
    upsertEach ds (ofTables m t) = ofTables m (putRows t ds) := by
  induction ds generalizing t with
  | nil => rfl
  | cons d ds ih =>
    have hd : d.name ≠ "" := h d List.mem_cons_self
    have hstep : (upsert d (ofTables m t)).final (ofTables m t) = ofTables m (t.put d) := by
      rw [upsert_ofTables, if_neg hd]
      rfl
    rw [upsertEach, List.foldl_cons, hstep]
    exact ih (fun e he => h e (List.mem_cons_of_mem d he)) (t.put d)

structure AllOrNothing (ds : List Definition) (db : Database) : Prop where
  ok_iff : (∃ n, (seed ds db).answer = .ok n) ↔ Acceptable ds
  written : Acceptable ds →
    (seed ds db).answer = .ok ds.length ∧
    (all ((seed ds db).final db)).answer = (all (upsertEach ds db)).answer ∧
    (getMetadata lastSeedKey ((seed ds db).final db)).answer =
      .ok (some (Text.natText ds.length)) ∧
    ∀ key ≠ lastSeedKey,
      (getMetadata key ((seed ds db).final db)).answer = (getMetadata key db).answer
  refused : ¬ Acceptable ds →
    (∃ reason, (seed ds db).answer = .error (.invalid reason)) ∧
    (seed ds db).commits = [] ∧ (seed ds db).final db = db
  bad_embedding : (∃ d ∈ ds, ¬ d.vector.isOk) → ∃ d token, FirstBad ds d token ∧
    (seed ds db).answer = .error (.invalid (.badEmbedding d.name ⟨token⟩)) ∧
    (StoreError.invalid (.badEmbedding d.name ⟨token⟩)).message? =
      some ("invalid data: " ++ ("symbol '" ++ d.name ++ "': " ++
        ("failed to parse float '" ++ token ++ "': invalid float literal")))
  blank_name : (∀ d ∈ ds, d.vector.isOk) → (∃ d ∈ ds, d.name = "") →
    (seed ds db).answer = .error (.invalid .emptyName)

section

variable {ds : List Definition} (m : KeyMap String String) (t : DefinitionTable)

theorem seed_of_firstBad {d : Definition} {token : String} (h : FirstBad ds d token)
    (db : Database) : seed ds db = ⟨.error (.invalid (.badEmbedding d.name ⟨token⟩)), []⟩ :=
  seed_of_bad_embedding (checkEmbeddings_of_firstBad h) db

theorem seed_of_blank_name (hv : ∀ d ∈ ds, d.vector.isOk) (hn : ∃ d ∈ ds, d.name = "") :
    seed ds (ofTables m t) = ⟨.error (.invalid .emptyName), []⟩ := by
  have hc : checkEmbeddings ds = .ok () :=
    (checkEmbeddings_eq_ok ds).mpr fun d hd => (isOk_vector_iff d).mp (hv d hd)
  rw [seed_ofTables m t hc, if_pos hn]

theorem seed_refused (h : ¬ Acceptable ds) :
    ∃ reason, seed ds (ofTables m t) = ⟨.error (.invalid reason), []⟩ := by
  by_cases hv : ∀ d ∈ ds, d.vector.isOk
  · have hn : ∃ d ∈ ds, d.name = "" := by
      by_contra hn
      push Not at hn
      exact h fun d hd => ⟨hn d hd, hv d hd⟩
    exact ⟨.emptyName, seed_of_blank_name m t hv hn⟩
  · push Not at hv
    obtain ⟨d, token, hbad⟩ := exists_firstBad hv
    exact ⟨.badEmbedding d.name ⟨token⟩, seed_of_firstBad hbad _⟩

end

theorem seed_allOrNothing (ds : List Definition) (m : KeyMap String String) (t : DefinitionTable) :
    AllOrNothing ds (ofTables m t) := by
  constructor
  case ok_iff =>
    constructor
    · rintro ⟨n, hn⟩
      by_contra ha
      obtain ⟨reason, hs⟩ := seed_refused m t ha
      rw [hs] at hn
      cases hn
    · intro ha
      refine ⟨ds.length, ?_⟩
      rw [seed_of_acceptable ha]
  case written =>
    intro ha
    have hnames : ∀ d ∈ ds, d.name ≠ "" := fun d hd => (ha d hd).1
    rw [seed_of_acceptable ha, upsertEach_ofTables hnames]
    refine ⟨rfl, rfl, ?_, ?_⟩
    · exact (getMetadata_ofTables _ _ _).trans (by rw [KeyMap.get?_insert, if_pos rfl])
    · intro key hkey
      refine (getMetadata_ofTables _ _ _).trans ?_
      rw [KeyMap.get?_insert, if_neg hkey]
      rfl
  case refused =>
    intro ha
    obtain ⟨reason, hs⟩ := seed_refused m t ha
    rw [hs]
    exact ⟨⟨reason, rfl⟩, rfl, rfl⟩
  case bad_embedding =>
    intro hv
    obtain ⟨d, token, hbad⟩ := exists_firstBad hv
    refine ⟨d, token, hbad, ?_, rfl⟩
    rw [seed_of_firstBad hbad]
  case blank_name =>
    intro hv hn
    rw [seed_of_blank_name m t hv hn]

end Store

end Predication
