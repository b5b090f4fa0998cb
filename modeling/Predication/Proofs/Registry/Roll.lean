import Predication.Proofs.Registry.Coherence
import Mathlib.Data.List.Basic
import Mathlib.Data.List.Induction
import Mathlib.Data.PEquiv

/-!
Naming as a partial bijection. A roll keeps the ids that were handed out and who holds which name,
one to one. A registry whose names are never empty shows at every point of a run what the roll
shows, as long as no entity is made in the place of one that bears another name; and as many
entities as there are ids can be made before one takes the place of another.
-/

namespace Predication

inductive NamingAnswer where
  | id (id : EntityId)
  | given (known : Bool)
  deriving DecidableEq

structure Roll where
  ids : List EntityId
  holder : String ≃. EntityId

namespace Roll

def leave (h : String ≃. EntityId) (id : EntityId) : String ≃. EntityId :=
  h.trans (.ofSet {j | j ≠ id})

def vacate (h : String ≃. EntityId) (name : String) : String ≃. EntityId :=
  (PEquiv.ofSet {n | n ≠ name}).trans h

theorem leave_eq_some (h : String ≃. EntityId) (id j : EntityId) (n : String) :
    leave h id n = some j ↔ h n = some j ∧ j ≠ id := by
  rw [leave, PEquiv.trans_eq_some]
  simp only [PEquiv.ofSet_eq_some_iff, Set.mem_ofPred_eq]
  constructor
  · rintro ⟨k, hk, rfl, hne⟩
    exact ⟨hk, hne⟩
  · rintro ⟨hj, hne⟩
    exact ⟨j, hj, rfl, hne⟩

theorem vacate_eq_some (h : String ≃. EntityId) (name n : String) (j : EntityId) :
    vacate h name n = some j ↔ h n = some j ∧ n ≠ name := by
  rw [vacate, PEquiv.trans_eq_some]
  simp only [PEquiv.ofSet_eq_some_iff, Set.mem_ofPred_eq]
  constructor
  · rintro ⟨k, ⟨rfl, hne⟩, hk⟩
    exact ⟨hk, hne⟩
  · rintro ⟨hj, hne⟩
    exact ⟨n, ⟨rfl, hne⟩, hj⟩

def join (h : String ≃. EntityId) (name : String) (id : EntityId) (hname : h name = none)
    (hid : h.symm id = none) : String ≃. EntityId where
  toFun n := if n = name then some id else h n
  invFun j := if j = id then some name else h.symm j
  inv n j := by
    have hn : h n = some id → n = name := by
      intro he
      rw [← PEquiv.eq_some_iff, hid] at he
      cases he
    have hj : h name ≠ some j := by simp [hname]
    by_cases hnn : n = name
    · by_cases hji : j = id
      · simp [hnn, hji]
      · have hs : h.symm j ≠ some name := fun he => hj (h.eq_some_iff.mp he)
        simp [hnn, hji, hs, Ne.symm hji]
    · by_cases hji : j = id
      · have he : h n ≠ some id := fun he => hnn (hn he)
        simp [hnn, hji, he, Ne.symm hnn]
      · simp [hnn, hji, PEquiv.eq_some_iff]

/-- First the name that `id` has is dropped, then `name` is taken from who holds it now, and then
the two are joined. -/
def give (h : String ≃. EntityId) (name : String) (id : EntityId) : String ≃. EntityId :=
  join (vacate (leave h id) name) name id
    (by
      rw [Option.eq_none_iff_forall_ne_some]
      intro j hj
      exact ((vacate_eq_some _ _ _ _).mp hj).2 rfl)
    (by
      rw [Option.eq_none_iff_forall_ne_some]
      intro n hn
      rw [PEquiv.eq_some_iff, vacate_eq_some, leave_eq_some] at hn
      exact hn.1.2 rfl)

theorem give_eq_some (h : String ≃. EntityId) (name n : String) (id j : EntityId) :
    give h name id n = some j ↔ n = name ∧ j = id ∨ n ≠ name ∧ j ≠ id ∧ h n = some j := by
  have hg : give h name id n = if n = name then some id else vacate (leave h id) name n := rfl
  rw [hg]
  by_cases hn : n = name
  · simp [hn, eq_comm]
  · simp [hn, vacate_eq_some, leave_eq_some, and_comm]

def empty : Roll := ⟨[], ⊥⟩

/-- The id of the next entity: ids go up from 100, and begin at zero again after the last. -/
def next (m : Roll) : EntityId :=
  ⟨100 + UInt32.ofNat m.ids.length⟩

def issue (m : Roll) : Roll :=
  { m with ids := m.ids ++ [m.next] }

def name (m : Roll) (id : EntityId) (n : String) : Roll :=
  { m with holder := give m.holder n id }

def step (m : Roll) : NamingStep → Roll
  | .create => m.issue
  | .createNamed n _ => m.issue.name m.next n
  | .assignName id n => if id ∈ m.ids then m.name id n else m

def answer (m : Roll) : NamingStep → NamingAnswer
  | .create => .id m.next
  | .createNamed _ _ => .id m.next
  | .assignName id _ => .given (decide (id ∈ m.ids))

def run (steps : List NamingStep) : Roll :=
  steps.foldl step empty

theorem run_concat (steps : List NamingStep) (s : NamingStep) :
    run (steps ++ [s]) = (run steps).step s := by
  simp [run]

end Roll

namespace NamingStep

def Named : NamingStep → Prop
  | .create => True
  | .createNamed name _ => name ≠ ""
  | .assignName _ name => name ≠ ""

def creates : NamingStep → Bool
  | .create => true
  | .createNamed _ _ => true
  | .assignName _ _ => false

end NamingStep

theorem Roll.ids_step (m : Roll) (s : NamingStep) :
    (m.step s).ids = if s.creates then m.issue.ids else m.ids := by
  cases s with
  | create => rfl
  | createNamed name thing => rfl
  | assignName id name =>
    rw [step]
    split <;> rfl

namespace Registry

def answer (r : Registry) : NamingStep → NamingAnswer
  | .create => .id r.create.2
  | .createNamed name thing => .id (r.createNamed name thing).2
  | .assignName id name => .given (r.assignName id name).2

structure Follows (r : Registry) (m : Roll) : Prop where
  known : ∀ id, id ∈ m.ids ↔ ∃ e, r.get? id = some e
  keyed : ∀ id e, r.get? id = some e → e.id = id
  held : ∀ n id, m.holder n = some id → ∃ e, r.get? id = some e ∧ r.lookup? n = some e
  free : ∀ n, m.holder n = none → r.lookup? n = none
  publicName : ∀ id e, r.get? id = some e → e.publicName = (m.holder.symm id).getD ""
  displayName : ∀ id e, r.get? id = some e →
    e.displayName = (m.holder.symm id).getD ("anon:" ++ Text.natText id.number.toNat)
  answers : ∀ s, r.answer s = m.answer s
  refuses : ∀ id n, id ∉ m.ids → r.step (.assignName id n) = r

/-- The step makes an entity in the place of one that bears another name. -/
def Displaces (r : Registry) : NamingStep → Prop
  | .create => ∃ n, n ≠ "" ∧ r.Bears ⟨r.nextId⟩ n
  | .createNamed name _ => ∃ n, n ≠ "" ∧ n ≠ name ∧ r.Bears ⟨r.nextId⟩ n
  | .assignName _ _ => False

structure Tracks (r : Registry) (m : Roll) : Prop where
  sound : r.Sound
  next : m.next = ⟨r.nextId⟩
  known : ∀ id, id ∈ m.ids ↔ ∃ e, r.get? id = some e
  index : ∀ n id, r.index.get? n = some id ↔ m.holder n = some id
  bears : ∀ n, n ≠ "" → ∀ id, r.Bears id n ↔ m.holder n = some id
  blank : ∀ id, m.holder "" ≠ some id

theorem next_issue (m : Roll) : m.issue.next = ⟨m.next.number + 1⟩ := by
  have hl : m.issue.ids.length = m.ids.length + 1 := by simp [Roll.issue]
  simp only [Roll.next, hl, EntityId.mk.injEq, UInt32.ofNat_add]
  ac_rfl

theorem tracks_empty : Tracks empty Roll.empty where
  sound := sound_empty
  next := rfl
  known id := by simp [Roll.empty, empty, get?]
  index n id := by simp [Roll.empty, empty]
  bears n h0 id := by simp [Roll.empty, empty, get?, Bears]
  blank id := by simp [Roll.empty]

theorem tracks_create {r : Registry} {m : Roll} (h : Tracks r m)
    (hd : ¬ r.Displaces .create) : Tracks r.create.1 m.issue where
  sound := sound_create h.sound
  next := by
    rw [next_issue, h.next]
    rfl
  known id := by
    have hk := h.known id
    rw [get?_create]
    by_cases hid : id = ⟨r.nextId⟩
    · simp [Roll.issue, h.next, hid]
    · simp [Roll.issue, h.next, hid, hk]
  index := h.index
  bears n h0 id := by
    have hb := h.bears n h0 id
    by_cases hid : id = ⟨r.nextId⟩
    · subst hid
      have hn : ¬ r.Bears ⟨r.nextId⟩ n := fun hn => hd ⟨n, h0, hn⟩
      have hself := bears_create_self r n
      exact iff_of_false (fun hc => h0 (hself.mp hc)) (fun hm => hn (hb.mpr hm))
    · exact (bears_create hid n).trans hb
  blank := h.blank

theorem Names.known {r r' : Registry} {id : EntityId} {old name : String}
    (hn : Names r r' id old name) (j : EntityId) :
    (∃ e, r'.get? j = some e) ↔ j = id ∨ ∃ e, r.get? j = some e := by
  by_cases hj : j = id
  · obtain ⟨e, he, -⟩ := hn.target
    exact iff_of_true ⟨e, hj ▸ he⟩ (.inl hj)
  · rw [hn.others j hj]
    split
    · simp [hj]
    · simp [hj]

section Names

variable {r r' : Registry} {m : Roll} {id : EntityId} {old name : String} (h : Tracks r m)
  (hn : Names r r' id old name)
  (hold : ∀ n, n ≠ "" → n ≠ name → (r.Bears id n ↔ n = old))
include h hn hold

theorem index_names (n : String) (j : EntityId) :
    r'.index.get? n = some j ↔ Roll.give m.holder name id n = some j := by
  rw [hn.index, Roll.give_eq_some]
  by_cases hname : n = name
  · simp [hname, eq_comm]
  have hdrop : n = old ∧ n ≠ "" ↔ m.holder n = some id := by
    by_cases hb : n = ""
    · have hblank : m.holder "" ≠ some id := h.blank id
      simp [hb, hblank]
    · have hb' : r.Bears id n ↔ m.holder n = some id := h.bears n hb id
      rw [← hb', hold n hb hname, and_iff_left hb]
  have hi : r.index.get? n = some j ↔ m.holder n = some j := h.index n j
  rw [if_neg hname]
  by_cases hh : m.holder n = some id
  · rw [if_pos (hdrop.mpr hh), hh]
    refine iff_of_false (by simp) ?_
    rintro (⟨hn', -⟩ | ⟨-, hne, he⟩)
    · exact hname hn'
    · exact hne (Option.some.inj he).symm
  · rw [if_neg (fun hc => hh (hdrop.mp hc)), hi]
    constructor
    · intro hj
      have hne : j ≠ id := by
        rintro rfl
        exact hh hj
      exact .inr ⟨hname, hne, hj⟩
    · rintro (⟨hn', -⟩ | ⟨-, -, hj⟩)
      · exact absurd hn' hname
      · exact hj

omit hold in
theorem bears_names {n : String} (h0 : n ≠ "") (j : EntityId) :
    r'.Bears j n ↔ Roll.give m.holder name id n = some j := by
  rw [Roll.give_eq_some]
  by_cases hj : j = id
  · have ht : r'.Bears id n ↔ n = name := hn.bears_target n
    simp [hj, ht]
  have hb : r.Bears j n ↔ m.holder n = some j := h.bears n h0 j
  rw [hn.bears_others hj h0]
  constructor
  · rintro ⟨hne, hbj⟩
    refine .inr ⟨?_, hj, hb.mp hbj⟩
    rintro rfl
    exact hne (h.sound.indexed n h0 j hbj)
  · rintro (⟨-, he⟩ | ⟨hname, -, hm⟩)
    · exact absurd he hj
    · refine ⟨?_, hb.mpr hm⟩
      intro hi
      have hm' : m.holder name = some j := (h.index name j).mp hi
      exact hname (m.holder.inj hm hm')

omit hn hold in
theorem blank_names (h0 : name ≠ "") (j : EntityId) : Roll.give m.holder name id "" ≠ some j := by
  rw [ne_eq, Roll.give_eq_some]
  rintro (⟨he, -⟩ | ⟨-, -, hm⟩)
  · exact h0 he.symm
  · exact h.blank j hm

end Names

theorem nextId_assignName (r : Registry) (id : EntityId) (name : String) :
    (r.assignName id name).1.nextId = r.nextId := by
  have hd (e : Entity) : (r.dropName e name).nextId = r.nextId := by
    unfold dropName
    split <;> rfl
  have hc (r : Registry) : (r.claimName id name).nextId = r.nextId := by
    unfold claimName
    split
    · rfl
    · split <;> rfl
  cases h : r.get? id with
  | none => rw [assignName_of_unknown h]
  | some e =>
    rw [assignName_of_known h, hc]
    exact hd e

theorem nextId_createNamed (r : Registry) (name thing : String) :
    (r.createNamed name thing).1.nextId = r.nextId + 1 :=
  nextId_assignName r.create.1 ⟨r.nextId⟩ name

theorem tracks_createNamed {r : Registry} {m : Roll} (h : Tracks r m) {name : String}
    (thing : String) (h0 : name ≠ "") (hd : ¬ r.Displaces (.createNamed name thing)) :
    Tracks (r.createNamed name thing).1 (m.issue.name m.next name) := by
  have hn : Names r (r.createNamed name thing).1 m.next "" name := by
    rw [h.next]
    exact names_createNamed r name thing
  have hold : ∀ n, n ≠ "" → n ≠ name → (r.Bears m.next n ↔ n = "") := by
    intro n hne hname
    refine iff_of_false ?_ hne
    intro hb
    exact hd ⟨n, hne, hname, h.next ▸ hb⟩
  refine ⟨hn.sound h.sound, ?_, ?_, index_names (m := m) h hn hold,
    fun n => bears_names (m := m) h hn, blank_names (m := m) h h0⟩
  · rw [nextId_createNamed]
    have hm : (m.issue.name m.next name).next = m.issue.next := rfl
    rw [hm, next_issue, h.next]
  · intro id
    have hk : id ∈ m.ids ↔ ∃ e, r.get? id = some e := h.known id
    rw [hn.known, ← hk]
    simp [Roll.name, Roll.issue, or_comm]

theorem tracks_assignName {r : Registry} {m : Roll} (h : Tracks r m) {id : EntityId}
    (hid : id ∈ m.ids) {name : String} (h0 : name ≠ "") :
    Tracks (r.assignName id name).1 (m.name id name) := by
  obtain ⟨e, he⟩ := (h.known id).mp hid
  have hn : Names r (r.assignName id name).1 id e.publicName name :=
    names_assignName h.sound he name
  have hold : ∀ n, n ≠ "" → n ≠ name → (r.Bears id n ↔ n = e.publicName) := by
    intro n _ _
    rw [bears_iff he, eq_comm]
  refine ⟨hn.sound h.sound, ?_, ?_, index_names h hn hold, fun n => bears_names h hn,
    blank_names h h0⟩
  · rw [nextId_assignName]
    exact h.next
  · intro j
    have hk : j ∈ m.ids ↔ ∃ e, r.get? j = some e := h.known j
    have hmem : j = id ∨ j ∈ m.ids ↔ j ∈ m.ids := or_iff_right_of_imp fun hj => hj ▸ hid
    rw [hn.known, ← hk, hmem]
    rfl

theorem Tracks.get?_eq_none {r : Registry} {m : Roll} (h : Tracks r m) {id : EntityId}
    (hid : id ∉ m.ids) : r.get? id = none := by
  rw [Option.eq_none_iff_forall_ne_some]
  intro e he
  exact hid ((h.known id).mpr ⟨e, he⟩)

theorem tracks_step {r : Registry} {m : Roll} (h : Tracks r m) {s : NamingStep} (hs : s.Named)
    (hd : ¬ r.Displaces s) : Tracks (r.step s) (m.step s) := by
  cases s with
  | create => exact tracks_create h hd
  | createNamed name thing => exact tracks_createNamed h thing hs hd
  | assignName id name =>
    by_cases hid : id ∈ m.ids
    · rw [Roll.step, if_pos hid]
      exact tracks_assignName h hid hs
    · rw [Roll.step, if_neg hid, step, assignName_of_unknown (h.get?_eq_none hid)]
      exact h

theorem tracks_run {steps : List NamingStep} (hs : ∀ s ∈ steps, s.Named)
    (hd : ∀ before s after, steps = before ++ s :: after →
      Tracks (run before) (Roll.run before) → ¬ (run before).Displaces s) :
    Tracks (run steps) (Roll.run steps) := by
  induction steps using List.reverseRecOn with
  | nil => exact tracks_empty
  | append_singleton steps s ih =>
    have ht : Tracks (run steps) (Roll.run steps) := by
      refine ih (fun t ht => hs t (List.mem_append_left _ ht)) ?_
      rintro before t after rfl
      exact hd before t (after ++ [s]) (by simp)
    rw [run_concat, Roll.run_concat]
    exact tracks_step ht (hs s (by simp)) (hd steps s [] rfl ht)

theorem Tracks.symm_eq_some {r : Registry} {m : Roll} (h : Tracks r m) {id : EntityId} {e : Entity}
    (he : r.get? id = some e) {n : String} (h0 : n ≠ "") :
    m.holder.symm id = some n ↔ e.publicName = n := by
  rw [PEquiv.eq_some_iff, ← h.bears n h0, bears_iff he]

theorem Tracks.symm_eq_none {r : Registry} {m : Roll} (h : Tracks r m) {id : EntityId} {e : Entity}
    (he : r.get? id = some e) (hn : e.publicName = "") : m.holder.symm id = none := by
  rw [Option.eq_none_iff_forall_ne_some]
  intro n hs
  have h0 : n ≠ "" := by
    rintro rfl
    exact h.blank id (PEquiv.eq_some_iff _ |>.mp hs)
  have hp : e.publicName = n := (h.symm_eq_some he h0).mp hs
  exact h0 (hp.symm.trans hn)

theorem follows_of_tracks {r : Registry} {m : Roll} (h : Tracks r m) : Follows r m where
  known := h.known
  keyed := h.sound.keyed
  held n id hm := by
    have hi : r.index.get? n = some id := (h.index n id).mpr hm
    obtain ⟨e, he⟩ := h.sound.stored n id hi
    exact ⟨e, he, lookup?_eq_some.mpr ⟨id, hi, he⟩⟩
  free n hm := by
    rw [Option.eq_none_iff_forall_ne_some]
    intro e he
    obtain ⟨id, hi, -⟩ := lookup?_eq_some.mp he
    have hm' : m.holder n = some id := (h.index n id).mp hi
    rw [hm] at hm'
    cases hm'
  publicName id e he := by
    by_cases hn : e.publicName = ""
    · rw [h.symm_eq_none he hn, hn]
      rfl
    · rw [(h.symm_eq_some he hn).mpr rfl]
      rfl
  displayName id e he := by
    have hk : e.id = id := h.sound.keyed id e he
    by_cases hn : e.publicName = ""
    · rw [h.symm_eq_none he hn, Entity.displayName, if_pos (by simp [hn]), hk]
      rfl
    · rw [(h.symm_eq_some he hn).mpr rfl, Entity.displayName, if_neg (by simp [hn])]
      rfl
  answers s := by
    cases s with
    | create => exact congrArg _ h.next.symm
    | createNamed name thing => exact congrArg _ h.next.symm
    | assignName id name =>
      by_cases hid : id ∈ m.ids
      · obtain ⟨e, he⟩ := (h.known id).mp hid
        rw [answer, Roll.answer, assignName_of_known he, decide_eq_true hid]
      · rw [answer, Roll.answer, assignName_of_unknown (h.get?_eq_none hid),
          decide_eq_false hid]
  refuses id n hid := by
    rw [step, assignName_of_unknown (h.get?_eq_none hid)]

theorem not_follows_of_displaces {r : Registry} (hr : r.Sound) {m : Roll} (h : Follows r m)
    {s : NamingStep} (hd : r.Displaces s) : ¬ Follows (r.step s) (m.step s) := by
  intro h'
  have hnext : m.next = ⟨r.nextId⟩ := by
    have ha : r.answer .create = m.answer .create := h.answers .create
    exact (NamingAnswer.id.inj ha).symm
  have held {n : String} (h0 : n ≠ "") (hb : r.Bears ⟨r.nextId⟩ n) :
      m.holder n = some ⟨r.nextId⟩ := by
    obtain ⟨e, he, rfl⟩ := hb
    have hp := h.publicName _ e he
    cases hs : m.holder.symm ⟨r.nextId⟩ with
    | none =>
      rw [hs] at hp
      exact absurd hp h0
    | some n =>
      rw [hs] at hp
      rw [hp]
      exact PEquiv.eq_some_iff _ |>.mp hs
  cases s with
  | create =>
    obtain ⟨n, h0, hb⟩ := hd
    have hs : m.holder.symm ⟨r.nextId⟩ = some n := PEquiv.eq_some_iff _ |>.mpr (held h0 hb)
    have hp := h'.publicName ⟨r.nextId⟩ _ (get?_create_self r)
    have hm : (m.step .create).holder = m.holder := rfl
    rw [hm, hs] at hp
    exact h0 hp.symm
  | createNamed name thing =>
    obtain ⟨n, h0, hname, hb⟩ := hd
    have hm : (m.step (.createNamed name thing)).holder n = none := by
      rw [Option.eq_none_iff_forall_ne_some]
      intro j hj
      have hg : Roll.give m.holder name m.next n = some j := hj
      rw [Roll.give_eq_some, held h0 hb, hnext] at hg
      rcases hg with ⟨hn, -⟩ | ⟨-, hne, he⟩
      · exact hname hn
      · exact hne (Option.some.inj he).symm
    have hl : (r.step (.createNamed name thing)).lookup? n = none := h'.free n hm
    have hi : (r.createNamed name thing).1.index.get? n = some ⟨r.nextId⟩ := by
      rw [index_createNamed, if_neg hname]
      exact hr.indexed n h0 _ hb
    have hl' := lookup?_eq_some.mpr ⟨_, hi, get?_createNamed_self r name thing⟩
    rw [step, hl'] at hl
    cases hl
  | assignName id name => exact hd

theorem ids_run (steps : List NamingStep) :
    (Roll.run steps).ids = (List.range (steps.countP NamingStep.creates)).map
      fun k => ⟨100 + UInt32.ofNat k⟩ := by
  induction steps using List.reverseRecOn with
  | nil => rfl
  | append_singleton steps s ih =>
    have hissue : (Roll.run steps).issue.ids =
        (List.range (steps.countP NamingStep.creates + 1)).map
          fun k => ⟨100 + UInt32.ofNat k⟩ := by
      rw [Roll.issue, List.range_succ, List.map_append, ← ih, Roll.next, ih]
      simp
    rw [Roll.run_concat, Roll.ids_step, List.countP_append, List.countP_singleton]
    split
    · exact hissue
    · exact ih

theorem next_notMem_ids {steps : List NamingStep}
    (hc : steps.countP NamingStep.creates < EntityId.count) :
    (Roll.run steps).next ∉ (Roll.run steps).ids := by
  have hl : (Roll.run steps).ids.length = steps.countP NamingStep.creates := by
    rw [ids_run]
    simp
  rw [Roll.next, hl, ids_run, List.mem_map]
  rintro ⟨k, hk, he⟩
  have hlt : k < steps.countP NamingStep.creates := List.mem_range.mp hk
  have hk' : UInt32.ofNat k = UInt32.ofNat (steps.countP NamingStep.creates) :=
    (UInt32.add_right_inj 100).mp (EntityId.mk.inj he)
  have heq := congrArg UInt32.toNat hk'
  rw [UInt32.toNat_ofNat_of_lt' (Nat.lt_trans hlt hc), UInt32.toNat_ofNat_of_lt' hc] at heq
  omega

theorem not_displaces_of_few {before : List NamingStep} {s : NamingStep}
    (hc : (before ++ [s]).countP NamingStep.creates ≤ EntityId.count)
    (ht : Tracks (run before) (Roll.run before)) : ¬ (run before).Displaces s := by
  have hfresh (hs : s.creates = true) (n : String) :
      ¬ (run before).Bears ⟨(run before).nextId⟩ n := by
    rintro ⟨e, he, -⟩
    have hlt : before.countP NamingStep.creates < EntityId.count := by
      rw [List.countP_append, List.countP_singleton, if_pos hs] at hc
      omega
    have hnone := ht.get?_eq_none (next_notMem_ids hlt)
    rw [ht.next, he] at hnone
    cases hnone
  cases s with
  | create =>
    rintro ⟨n, -, hb⟩
    exact hfresh rfl n hb
  | createNamed name thing =>
    rintro ⟨n, -, -, hb⟩
    exact hfresh rfl n hb
  | assignName id name => exact not_false

def FollowsThroughout (steps : List NamingStep) : Prop :=
  ∀ before after, steps = before ++ after → (run before).Follows (Roll.run before)

theorem follows_roll (steps : List NamingStep) (hs : ∀ s ∈ steps, s.Named) :
    (steps.countP NamingStep.creates ≤ EntityId.count → FollowsThroughout steps) ∧
    (FollowsThroughout steps ↔ ∀ before s after, steps = before ++ s :: after →
      ¬ (run before).Displaces s) := by
  have tracks {before after : List NamingStep} (he : steps = before ++ after)
      (hd : ∀ b s a, steps = b ++ s :: a → Tracks (run b) (Roll.run b) →
        ¬ (run b).Displaces s) : Tracks (run before) (Roll.run before) := by
    subst he
    refine tracks_run (fun s h => hs s (List.mem_append_left _ h)) ?_
    rintro b s a rfl
    exact hd b s (a ++ after) (by simp)
  refine ⟨?_, ?_, ?_⟩
  · intro hc before after he
    refine follows_of_tracks (tracks he ?_)
    rintro b s a rfl
    apply not_displaces_of_few
    have hsplit : b ++ s :: a = (b ++ [s]) ++ a := by simp
    rw [hsplit, List.countP_append] at hc
    omega
  · rintro hf before s after rfl hd
    have hb : (run before).Follows (Roll.run before) := hf before (s :: after) rfl
    have hb' : (run (before ++ [s])).Follows (Roll.run (before ++ [s])) :=
      hf (before ++ [s]) after (by simp)
    rw [run_concat, Roll.run_concat] at hb'
    exact not_follows_of_displaces (sound_run before) hb hd hb'
  · intro hd before after he
    exact follows_of_tracks (tracks he fun b s a h _ => hd b s a h)

theorem follows_roll_swap :
    let steps : List NamingStep :=
      [.createNamed "car" "Vehicle", .create, .assignName ⟨101⟩ "bus", .assignName ⟨100⟩ "van",
        .assignName ⟨101⟩ "car", .assignName ⟨100⟩ "bus", .assignName ⟨7⟩ "bus",
        .assignName ⟨101⟩ "bus"]
    (run steps).Follows (Roll.run steps) ∧ (Roll.run steps).holder "bus" = some ⟨101⟩ := by
  intro steps
  have hs : ∀ s ∈ steps, s.Named := by
    simp [steps, NamingStep.Named]
  have hc : steps.countP NamingStep.creates ≤ EntityId.count := by decide
  exact ⟨(follows_roll steps hs).1 hc steps [] (List.append_nil _).symm, by decide⟩

end Registry

end Predication
