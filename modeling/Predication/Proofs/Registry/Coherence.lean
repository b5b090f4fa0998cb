import Predication.Proofs.Registry.Naming
import Mathlib.Data.List.Basic
import Mathlib.Data.List.Induction
import Mathlib.Tactic.ByContra

/-!
Coherence of the index of names. An entity that bears a name is always found under it, so names are
unique. The converse can fail: giving a name to one entity clears whatever name its former
recipient bears, and the empty name stays in the index when its recipient is named. A name that an
entity has lost in this way still leads to it, until the name is given again.
-/

namespace Predication.Registry

def Coherent (r : Registry) : Prop :=
  ∀ n, n ≠ "" → ∀ id e, r.get? id = some e → (r.lookup? n = some e ↔ e.publicName = n)

def Bears (r : Registry) (id : EntityId) (n : String) : Prop :=
  ∃ e, r.get? id = some e ∧ e.publicName = n

/-- Giving `name` to `id` clears `n`, the public name of another entity that the index holds. -/
def Clears (r : Registry) (id : EntityId) (name n : String) : Prop :=
  ∃ e, r.lookup? name = some e ∧ e.id ≠ id ∧ e.publicName = n

/-- The step takes `n` from its bearer, who is not the one to be named. -/
def Takes (r : Registry) (n : String) : NamingStep → Prop
  | .create => r.Bears ⟨r.nextId⟩ n
  | .createNamed name _ => r.Bears ⟨r.nextId⟩ n ∨ r.Clears ⟨r.nextId⟩ name n
  | .assignName id name => (r.get? id).isSome ∧ r.Clears id name n

def Gives (r : Registry) (n : String) : NamingStep → Prop
  | .create => False
  | .createNamed name _ => n = name
  | .assignName id name => (r.get? id).isSome ∧ n = name

def Strips (r : Registry) (n : String) (s : NamingStep) : Prop :=
  r.Takes n s ∧ ¬ r.Gives n s

/-- Some step stripped `n` off its bearer, and no later step gave it to anyone. -/
def Lost (steps : List NamingStep) (n : String) : Prop :=
  ∃ before s later, steps = before ++ s :: later ∧ (run before).Strips n s ∧
    ∀ mid t rest, later = mid ++ t :: rest → ¬ (run (before ++ s :: mid)).Gives n t

structure Sound (r : Registry) : Prop where
  keyed : ∀ id e, r.get? id = some e → e.id = id
  stored : ∀ n id, r.index.get? n = some id → ∃ e, r.get? id = some e
  indexed : ∀ n, n ≠ "" → ∀ id, r.Bears id n → r.index.get? n = some id

def Stale (r : Registry) (n : String) : Prop :=
  ∃ e, r.lookup? n = some e ∧ e.publicName ≠ n

theorem lookup?_eq_some {r : Registry} {n : String} {e : Entity} :
    r.lookup? n = some e ↔ ∃ id, r.index.get? n = some id ∧ r.get? id = some e :=
  Option.bind_eq_some_iff

theorem bears_iff {r : Registry} {id : EntityId} {e : Entity} (h : r.get? id = some e)
    (n : String) : r.Bears id n ↔ e.publicName = n := by
  simp [Bears, h]

namespace Sound

variable {r : Registry} (hr : r.Sound)
include hr

theorem stale_iff (n : String) :
    r.Stale n ↔ ∃ id, r.index.get? n = some id ∧ ¬ r.Bears id n := by
  constructor
  · rintro ⟨e, he, hne⟩
    obtain ⟨id, hi, hg⟩ := lookup?_eq_some.mp he
    exact ⟨id, hi, fun hb => hne ((bears_iff hg n).mp hb)⟩
  · rintro ⟨id, hi, hb⟩
    obtain ⟨e, hg⟩ := hr.stored n id hi
    exact ⟨e, lookup?_eq_some.mpr ⟨id, hi, hg⟩, fun hn => hb ((bears_iff hg n).mpr hn)⟩

theorem clears_iff (id : EntityId) (name n : String) :
    r.Clears id name n ↔ ∃ i, r.index.get? name = some i ∧ i ≠ id ∧ r.Bears i n := by
  constructor
  · rintro ⟨e, he, hid, hn⟩
    obtain ⟨i, hi, hg⟩ := lookup?_eq_some.mp he
    exact ⟨i, hi, fun h => hid ((hr.keyed i e hg).trans h), e, hg, hn⟩
  · rintro ⟨i, hi, hid, e, hg, hn⟩
    exact ⟨e, lookup?_eq_some.mpr ⟨i, hi, hg⟩, fun h => hid ((hr.keyed i e hg).symm.trans h), hn⟩

theorem bearer_unique {n : String} (h0 : n ≠ "") {i j : EntityId} (hi : r.Bears i n)
    (hj : r.Bears j n) : i = j := by
  have h := (hr.indexed n h0 i hi).symm.trans (hr.indexed n h0 j hj)
  exact Option.some.inj h

theorem lookup?_of_bears {id : EntityId} {e : Entity} (h : r.get? id = some e)
    (h0 : e.publicName ≠ "") : r.lookup? e.publicName = some e :=
  lookup?_eq_some.mpr ⟨id, hr.indexed _ h0 id ⟨e, h, rfl⟩, h⟩

theorem coherent_iff : r.Coherent ↔ ∀ n, n ≠ "" → ¬ r.Stale n := by
  constructor
  · rintro hc n h0 ⟨e, he, hne⟩
    obtain ⟨id, -, hg⟩ := lookup?_eq_some.mp he
    exact hne ((hc n h0 id e hg).mp he)
  · intro hs n h0 id e hg
    constructor
    · intro he
      by_contra hne
      exact hs n h0 ⟨e, he, hne⟩
    · rintro rfl
      exact hr.lookup?_of_bears hg h0

end Sound

theorem sound_empty : empty.Sound where
  keyed _ _ h := by simp [empty, get?] at h
  stored _ _ h := by simp [empty] at h
  indexed _ _ _ h := by simp [empty, get?, Bears] at h

theorem bears_create_self (r : Registry) (n : String) :
    r.create.1.Bears ⟨r.nextId⟩ n ↔ n = "" := by
  rw [bears_iff (get?_create_self r)]
  exact eq_comm

theorem bears_create {r : Registry} {id : EntityId} (h : id ≠ ⟨r.nextId⟩) (n : String) :
    r.create.1.Bears id n ↔ r.Bears id n := by
  rw [Bears, get?_create, if_neg h]
  rfl

theorem sound_create {r : Registry} (hr : r.Sound) : r.create.1.Sound where
  keyed id e h := by
    rw [get?_create] at h
    split at h
    · next hid => cases h; exact hid.symm
    · exact hr.keyed id e h
  stored n id h := by
    obtain ⟨e, he⟩ := hr.stored n id h
    rw [get?_create]
    split
    · exact ⟨_, rfl⟩
    · exact ⟨e, he⟩
  indexed n h0 id h := by
    by_cases hid : id = ⟨r.nextId⟩
    · subst hid
      exact absurd ((bears_create_self r n).mp h) h0
    · exact hr.indexed n h0 id ((bears_create hid n).mp h)

theorem stale_create {r : Registry} (hr : r.Sound) {n : String} (h0 : n ≠ "") :
    r.create.1.Stale n ↔ r.Stale n ∨ r.Bears ⟨r.nextId⟩ n := by
  rw [(sound_create hr).stale_iff, hr.stale_iff, index_create]
  constructor
  · rintro ⟨id, hi, hb⟩
    by_cases hid : id = ⟨r.nextId⟩
    · by_cases hn : r.Bears ⟨r.nextId⟩ n
      · exact .inr hn
      · exact .inl ⟨id, hi, hid ▸ hn⟩
    · exact .inl ⟨id, hi, fun hn => hb ((bears_create hid n).mpr hn)⟩
  · rintro (⟨id, hi, hb⟩ | hb)
    · refine ⟨id, hi, fun hn => ?_⟩
      by_cases hid : id = ⟨r.nextId⟩
      · subst hid
        exact h0 ((bears_create_self r n).mp hn)
      · exact hb ((bears_create hid n).mp hn)
    · exact ⟨_, hr.indexed n h0 _ hb, fun hn => h0 ((bears_create_self r n).mp hn)⟩

/-- What giving `name` to `id` does; `old` is the name that leaves the index with it. -/
structure Names (r r' : Registry) (id : EntityId) (old name : String) : Prop where
  former : old ≠ "" → r.Bears id old
  target : ∃ e, r'.get? id = some e ∧ e.id = id ∧ e.publicName = name
  others : ∀ other, other ≠ id → r'.get? other =
    if r.index.get? name = some other then (r.get? other).map Entity.unnamed else r.get? other
  index : ∀ n, r'.index.get? n =
    if n = name then some id else if n = old ∧ n ≠ "" then none else r.index.get? n

theorem names_assignName {r : Registry} (hr : r.Sound) {id : EntityId} {e : Entity}
    (h : r.get? id = some e) (name : String) :
    Names r (r.assignName id name).1 id e.publicName name where
  former _ := ⟨e, h, rfl⟩
  target := ⟨_, get?_assignName_self h, hr.keyed id e h, rfl⟩
  others _ ho := get?_assignName h ho
  index := index_assignName h

theorem names_createNamed (r : Registry) (name thing : String) :
    Names r (r.createNamed name thing).1 ⟨r.nextId⟩ "" name where
  former h := absurd rfl h
  target := ⟨_, get?_createNamed_self r name thing, rfl, rfl⟩
  others _ ho := get?_createNamed r name thing ho
  index n := by
    rw [index_createNamed, if_neg (show ¬(n = "" ∧ n ≠ "") from fun h => h.2 h.1)]

namespace Names

variable {r r' : Registry} {id : EntityId} {old name : String} (hn : Names r r' id old name)
include hn

theorem bears_target (n : String) : r'.Bears id n ↔ n = name := by
  obtain ⟨e, he, -, hname⟩ := hn.target
  rw [bears_iff he, hname]
  exact eq_comm

theorem bears_others {other : EntityId} (ho : other ≠ id) {n : String} (h0 : n ≠ "") :
    r'.Bears other n ↔ r.index.get? name ≠ some other ∧ r.Bears other n := by
  rw [Bears, hn.others other ho]
  split
  · next hh =>
    refine iff_of_false ?_ (fun h => h.1 hh)
    rintro ⟨e, he, hen⟩
    obtain ⟨b, -, rfl⟩ := Option.map_eq_some_iff.mp he
    exact h0 hen.symm
  · next hh => exact (and_iff_right hh).symm

theorem keeps_iff (hr : r.Sound) {other : EntityId} (ho : other ≠ id) {n : String} (h0 : n ≠ "")
    (hb : r.Bears other n) : r'.Bears other n ↔ ¬ r.Clears id name n := by
  rw [hn.bears_others ho h0, hr.clears_iff, and_iff_left hb]
  constructor
  · rintro hh ⟨i, hi, -, hbi⟩
    exact hh (hr.bearer_unique h0 hbi hb ▸ hi)
  · intro hc hh
    exact hc ⟨other, hh, ho, hb⟩

theorem sound (hr : r.Sound) : r'.Sound where
  keyed other e h := by
    by_cases ho : other = id
    · obtain ⟨t, ht, hid, -⟩ := hn.target
      subst ho
      cases ht.symm.trans h
      exact hid
    · rw [hn.others other ho] at h
      split at h
      · obtain ⟨b, hb, rfl⟩ := Option.map_eq_some_iff.mp h
        exact hr.keyed other b hb
      · exact hr.keyed other e h
  stored n other h := by
    by_cases ho : other = id
    · obtain ⟨t, ht, -⟩ := hn.target
      exact ⟨t, ho ▸ ht⟩
    · rw [hn.index] at h
      split at h
      · exact absurd (Option.some.inj h).symm ho
      · split at h
        · cases h
        · obtain ⟨b, hb⟩ := hr.stored n other h
          rw [hn.others other ho, hb]
          split
          · exact ⟨_, rfl⟩
          · exact ⟨_, rfl⟩
  indexed n h0 other h := by
    rw [hn.index]
    by_cases ho : other = id
    · subst ho
      rw [if_pos ((hn.bears_target n).mp h)]
    · obtain ⟨hh, hb⟩ := (hn.bears_others ho h0).mp h
      have hi := hr.indexed n h0 other hb
      have hname : n ≠ name := fun he => hh (he ▸ hi)
      have hold : ¬(n = old ∧ n ≠ "") := by
        rintro ⟨he, -⟩
        exact ho (hr.bearer_unique h0 hb (he ▸ hn.former (he ▸ h0)))
      rw [if_neg hname, if_neg hold, hi]

theorem stale_iff (hr : r.Sound) {n : String} (h0 : n ≠ "") :
    r'.Stale n ↔ n ≠ name ∧
      (r.Stale n ∨ (n ≠ old ∧ r.Bears id n) ∨ r.Clears id name n) := by
  rw [(hn.sound hr).stale_iff, hr.stale_iff, hr.clears_iff, hn.index]
  by_cases hname : n = name
  · rw [if_pos hname]
    refine iff_of_false ?_ (fun h => h.1 hname)
    rintro ⟨i, hi, hb⟩
    cases hi
    exact hb ((hn.bears_target n).mpr hname)
  rw [if_neg hname]
  by_cases hold : n = old
  · rw [if_pos ⟨hold, h0⟩]
    have hb : r.Bears id n := hold ▸ hn.former (hold ▸ h0)
    refine iff_of_false (by simp) ?_
    rintro ⟨-, ⟨i, hi, hni⟩ | ⟨hne, -⟩ | ⟨i, -, hid, hbi⟩⟩
    · have := Option.some.inj (hi.symm.trans (hr.indexed n h0 id hb))
      exact hni (this ▸ hb)
    · exact hne hold
    · exact hid (hr.bearer_unique h0 hbi hb)
  rw [if_neg fun h => hold h.1]
  constructor
  · rintro ⟨i, hi, hb⟩
    refine ⟨hname, ?_⟩
    by_cases hbi : r.Bears i n
    · by_cases hid : i = id
      · exact .inr (.inl ⟨hold, hid ▸ hbi⟩)
      · have hh : r.index.get? name = some i := by
          by_contra hh
          exact hb ((hn.bears_others hid h0).mpr ⟨hh, hbi⟩)
        exact .inr (.inr ⟨i, hh, hid, hbi⟩)
    · exact .inl ⟨i, hi, hbi⟩
  · rintro ⟨-, ⟨i, hi, hb⟩ | ⟨-, hb⟩ | ⟨i, hi, hid, hb⟩⟩
    · refine ⟨i, hi, fun hb' => ?_⟩
      by_cases hid : i = id
      · subst hid
        exact hname ((hn.bears_target n).mp hb')
      · exact hb ((hn.bears_others hid h0).mp hb').2
    · exact ⟨id, hr.indexed n h0 id hb, fun hb' => hname ((hn.bears_target n).mp hb')⟩
    · exact ⟨i, hr.indexed n h0 i hb, fun hb' => ((hn.bears_others hid h0).mp hb').1 hi⟩

end Names

theorem sound_step {r : Registry} (hr : r.Sound) (s : NamingStep) : (r.step s).Sound := by
  cases s with
  | create => exact sound_create hr
  | createNamed name thing => exact (names_createNamed r name thing).sound hr
  | assignName id name =>
    cases h : r.get? id with
    | none =>
      rw [step, assignName_of_unknown h]
      exact hr
    | some e => exact (names_assignName hr h name).sound hr

theorem sound_run (steps : List NamingStep) : (run steps).Sound := by
  induction steps using List.reverseRecOn with
  | nil => exact sound_empty
  | append_singleton steps s ih =>
    rw [run_concat]
    exact sound_step ih s

theorem stale_step {r : Registry} (hr : r.Sound) (s : NamingStep) {n : String} (h0 : n ≠ "") :
    (r.step s).Stale n ↔ ¬ r.Gives n s ∧ (r.Stale n ∨ r.Takes n s) := by
  cases s with
  | create => simpa [step, Gives, Takes] using stale_create hr h0
  | createNamed name thing =>
    have hs := (names_createNamed r name thing).stale_iff hr h0
    simpa [step, Gives, Takes, h0] using hs
  | assignName id name =>
    cases h : r.get? id with
    | none => simp [step, assignName_of_unknown h, Gives, Takes, h]
    | some e =>
      have hs := (names_assignName hr h name).stale_iff hr h0
      have ho : ¬(n ≠ e.publicName ∧ r.Bears id n) := by
        rintro ⟨hne, hb⟩
        exact hne ((bears_iff h n).mp hb).symm
      simpa [step, Gives, Takes, h, ho] using hs

theorem lost_concat (steps : List NamingStep) (s : NamingStep) (n : String) :
    Lost (steps ++ [s]) n ↔
      ¬ (run steps).Gives n s ∧ (Lost steps n ∨ (run steps).Takes n s) := by
  constructor
  · rintro ⟨before, t, later, heq, ht, hl⟩
    rcases List.eq_nil_or_concat' later with rfl | ⟨mid, u, rfl⟩
    · obtain ⟨rfl, hs⟩ := List.append_inj' heq rfl
      cases hs
      exact ⟨ht.2, .inr ht.1⟩
    · have hsplit : steps ++ [s] = (before ++ t :: mid) ++ [u] := by simpa using heq
      obtain ⟨rfl, hs⟩ := List.append_inj' hsplit rfl
      cases hs
      refine ⟨hl mid s [] rfl, .inl ⟨before, t, mid, rfl, ht, fun m v rest hm => ?_⟩⟩
      exact hl m v (rest ++ [s]) (by simp [hm])
  · rintro ⟨hg, ⟨before, t, later, rfl, ht, hl⟩ | ht⟩
    · refine ⟨before, t, later ++ [s], by simp, ht, fun mid u rest hm => ?_⟩
      rcases List.eq_nil_or_concat' rest with rfl | ⟨rest, v, rfl⟩
      · obtain ⟨rfl, hs⟩ := List.append_inj' hm rfl
        cases hs
        exact hg
      · have hsplit : later ++ [s] = (mid ++ u :: rest) ++ [v] := by simpa using hm
        obtain ⟨rfl, -⟩ := List.append_inj' hsplit rfl
        exact hl mid u rest rfl
    · exact ⟨steps, s, [], rfl, ⟨ht, hg⟩, by simp⟩

theorem stale_run (steps : List NamingStep) {n : String} (h0 : n ≠ "") :
    (run steps).Stale n ↔ Lost steps n := by
  induction steps using List.reverseRecOn with
  | nil =>
    refine iff_of_false ?_ ?_
    · simp [Stale, run, lookup?, empty]
    · rintro ⟨before, s, later, h, -⟩
      simp at h
  | append_singleton steps s ih =>
    rw [run_concat, stale_step (sound_run steps) s h0, lost_concat, ih]

def Renames (id : EntityId) : NamingStep → Prop
  | .create => False
  | .createNamed _ _ => False
  | .assignName other _ => other = id

/-- Who bears a name still does after the step, but for the one it names and the one whose name it
gives. -/
def Spares (r : Registry) (s : NamingStep) : Prop :=
  ∀ id n, n ≠ "" → r.Bears id n → ¬ Renames id s → ¬ r.Gives n s → (r.step s).Bears id n

theorem spares_iff {r : Registry} (hr : r.Sound) (s : NamingStep) :
    r.Spares s ↔ ∀ n, n ≠ "" → ¬ r.Strips n s := by
  cases s with
  | create =>
    constructor
    · rintro hs n h0 ⟨hb, -⟩
      exact h0 ((bears_create_self r n).mp (hs _ n h0 hb id id))
    · intro hs id n h0 hb _ _
      have hid : id ≠ ⟨r.nextId⟩ := by
        rintro rfl
        exact hs n h0 ⟨hb, not_false⟩
      exact (bears_create hid n).mpr hb
  | createNamed name thing =>
    have hn := names_createNamed r name thing
    constructor
    · rintro hs n h0 ⟨hb | hc, hg⟩
      · exact hg ((hn.bears_target n).mp (hs _ n h0 hb id hg))
      · obtain ⟨i, hi, hid, hb⟩ := (hr.clears_iff _ _ _).mp hc
        exact (hn.keeps_iff hr hid h0 hb).mp (hs i n h0 hb not_false hg) hc
    · intro hs id n h0 hb _ hg
      have hid : id ≠ ⟨r.nextId⟩ := fun h => hs n h0 ⟨.inl (h ▸ hb), hg⟩
      exact (hn.keeps_iff hr hid h0 hb).mpr fun hc => hs n h0 ⟨.inr hc, hg⟩
  | assignName id name =>
    cases h : r.get? id with
    | none =>
      have hr' : r.step (.assignName id name) = r := by rw [step, assignName_of_unknown h]
      refine iff_of_true (fun i n _ hb _ _ => hr'.symm ▸ hb) ?_
      rintro n - ⟨ht, -⟩
      simp [Takes, h] at ht
    | some e =>
      have hk : (r.get? id).isSome := by simp [h]
      have hn := names_assignName hr h name
      constructor
      · rintro hs n h0 ⟨⟨-, hc⟩, hg⟩
        obtain ⟨i, hi, hid, hb⟩ := (hr.clears_iff _ _ _).mp hc
        exact (hn.keeps_iff hr hid h0 hb).mp (hs i n h0 hb (Ne.symm hid) hg) hc
      · intro hs i n h0 hb hid hg
        exact (hn.keeps_iff hr (Ne.symm hid) h0 hb).mpr fun hc => hs n h0 ⟨⟨hk, hc⟩, hg⟩

theorem coherent_run_iff (steps : List NamingStep) :
    (∀ id e, (run steps).get? id = some e → e.publicName ≠ "" →
      (run steps).lookup? e.publicName = some e) ∧
    (∀ i j n, n ≠ "" → (run steps).Bears i n → (run steps).Bears j n → i = j) ∧
    ((run steps).Coherent ↔ ∀ n, n ≠ "" → ¬ Lost steps n) ∧
    (∀ s, (run steps).Spares s ↔ ∀ n, n ≠ "" → ¬ (run steps).Strips n s) := by
  have hr := sound_run steps
  refine ⟨fun id e h h0 => hr.lookup?_of_bears h h0, fun i j n h0 => hr.bearer_unique h0, ?_,
    spares_iff hr⟩
  rw [hr.coherent_iff]
  exact forall₂_congr fun n h0 => not_congr (stale_run steps h0)

/-- The empty name stays in the index when its recipient is named, so giving it to a second entity
clears the name of the first, which the index goes on to give. -/
theorem blank_given_twice_not_coherent : ¬ ∀ steps, (run steps).Coherent := by
  intro h
  let steps : List NamingStep :=
    [.createNamed "" "Vehicle", .assignName ⟨100⟩ "car", .createNamed "" "Person"]
  have hg : (run steps).get? ⟨100⟩ = some { id := ⟨100⟩, thing := "Vehicle" } := by
    decide +kernel
  have hl : (run steps).lookup? "car" = some { id := ⟨100⟩, thing := "Vehicle" } := by
    decide +kernel
  have hn := (h steps "car" (by decide) ⟨100⟩ _ hg).mp hl
  exact absurd hn (by decide)

end Predication.Registry
