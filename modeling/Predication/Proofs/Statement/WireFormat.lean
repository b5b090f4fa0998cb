import Mathlib
import Predication.Proofs.Json.Document
import Predication.Proofs.Statement.WireRoundTrip

namespace Predication

namespace Json

def valuesOf (key : String) (ms : List (Option String × Json)) : List Json :=
  (ms.filter fun m => m.1 == some key).map Prod.snd

theorem member?_eq_some_iff {key : String} {ms : List (Option String × Json)} {m : Option Json} :
    member? key ms = some m ↔ valuesOf key ms = m.toList := by
  rw [member?, valuesOf]
  cases ms.filter fun m => m.1 == some key with
  | nil => cases m <;> simp
  | cons x xs =>
    cases xs with
    | nil =>
      cases m with
      | none => simp
      | some v => simp
    | cons y ys => cases m <;> simp

theorem text?_eq_some_iff {v : Json} {s : String} : v.text? = some s ↔ v = .text (some s) := by
  cases v <;> simp [text?]

theorem number?_eq_some_iff {v : Json} {n : Nat} : v.number? = some n ↔ v = .number (some n) := by
  cases v <;> simp [number?]

theorem mapM_text?_eq_some_iff {vs : List Json} {ss : List String} :
    vs.mapM text? = some ss ↔ vs = ss.map fun s => .text (some s) := by
  induction vs generalizing ss with
  | nil => cases ss <;> simp
  | cons v vs ih =>
    simp only [List.mapM_cons, Option.bind_eq_bind, Option.bind_eq_some_iff, text?_eq_some_iff, ih,
      Option.pure_def, Option.some.injEq]
    constructor
    · rintro ⟨s, rfl, ss, rfl, rfl⟩
      rfl
    · intro h
      cases ss with
      | nil => cases h
      | cons s ss =>
        cases h
        exact ⟨s, rfl, ss, rfl, rfl⟩

end Json

namespace WireStatement

open Json (Document valuesOf)

section Parts

variable {v : Json}

theorem subject?_eq_some_iff {e : EntityId} :
    subject? v = some e ↔ v = .number (some e.number.toNat) := by
  constructor
  · intro h
    obtain ⟨n, hn, h⟩ := Option.bind_eq_some_iff.mp h
    split at h
    · next hlt =>
      cases h
      rw [UInt32.toNat_ofNat_of_lt' hlt]
      exact Json.number?_eq_some_iff.mp hn
    · cases h
  · rintro rfl
    have hlt : e.number.toNat < 0x100000000 := e.number.toNat_lt
    simp only [subject?, Json.number?, Option.bind_some, if_pos hlt, UInt32.ofNat_toNat]

theorem payload?_eq_some_iff {p : Payload} : payload? v = some p ↔ v = p.toJson := by
  constructor
  · intro h
    rw [payload?.eq_def] at h
    split at h
    · obtain ⟨s, rfl, rfl⟩ := Option.map_eq_some_iff.mp h
      rfl
    · obtain ⟨ss, hs, rfl⟩ := Option.map_eq_some_iff.mp h
      rw [Json.mapM_text?_eq_some_iff.mp hs]
      rfl
    · cases h
  · rintro rfl
    exact payload?_toJson p

def verbJson : Option WireVerb → Json
  | none => .null
  | some v => v.toJson

theorem verb?_eq_some_iff {verb : Option WireVerb} : verb? v = some verb ↔ v = verbJson verb := by
  constructor
  · intro h
    rw [verb?.eq_def] at h
    split at h
    · cases h
      rfl
    · next key value =>
      split at h
      · next hkey =>
        obtain ⟨s, hs, rfl⟩ := Option.map_eq_some_iff.mp h
        rw [hkey, Json.text?_eq_some_iff.mp hs]
        rfl
      · split at h
        · next hkey =>
          obtain ⟨s, hs, rfl⟩ := Option.map_eq_some_iff.mp h
          rw [hkey, Json.text?_eq_some_iff.mp hs]
          rfl
        · cases h
    · cases h
  · rintro rfl
    cases verb with
    | none => rfl
    | some w => exact verb?_toJson w

end Parts

structure Fields where
  scope : List Json
  subject : List Json
  modalVerb : List Json
  mainVerb : List Json
  condition : List Json
  statement : List Json

def Fields.ofMembers (ms : List (Option String × Json)) : Fields where
  scope := valuesOf "scope" ms
  subject := valuesOf "subject" ms
  modalVerb := valuesOf "modalVerb" ms
  mainVerb := valuesOf "mainVerb" ms
  condition := valuesOf "condition" ms
  statement := valuesOf "statement" ms

/-- The fields of an object, whose keys are texts and whose further members can be any, and of an
array of six. -/
inductive Gives : Json → Fields → Prop
  | object {ms : List (Option String × Json)} (keys : ∀ m ∈ ms, m.1.isSome = true) :
      Gives (.object ms) (.ofMembers ms)
  | array (scope subject modalVerb mainVerb condition statement : Json) :
      Gives (.array [scope, subject, modalVerb, mainVerb, condition, statement])
        { scope := [scope]
          subject := [subject]
          modalVerb := [modalVerb]
          mainVerb := [mainVerb]
          condition := [condition]
          statement := [statement] }

/-- Each part once, or not at all where it has the default. -/
structure Fields.Hold (f : Fields) (w : WireStatement) : Prop where
  scope : f.scope = [.text (some w.scope)]
  subject : f.subject = [.number (some w.subject.number.toNat)]
  modalVerb : f.modalVerb = [] ∧ w.modalVerb = "" ∨ f.modalVerb = [.text (some w.modalVerb)]
  mainVerb : f.mainVerb = [] ∧ w.mainVerb = none ∨ f.mainVerb = [verbJson w.mainVerb]
  condition : f.condition = [] ∧ w.condition = "" ∨ f.condition = [.text (some w.condition)]
  statement : f.statement = [w.payload.toJson]

theorem required_eq_some_iff {key : String} {ms : List (Option String × Json)} {v : Json} :
    required key ms = some v ↔ valuesOf key ms = [v] := by
  simp only [required, Option.bind_eq_some_iff, Json.member?_eq_some_iff, id, exists_eq_right,
    Option.toList_some]

theorem optional_eq_some_iff {key : String} {ms : List (Option String × Json)} {d v : Json} :
    optional key d ms = some v ↔ valuesOf key ms = [] ∧ v = d ∨ valuesOf key ms = [v] := by
  simp only [optional, Option.map_eq_some_iff, Json.member?_eq_some_iff]
  constructor
  · rintro ⟨m, hm, rfl⟩
    cases m with
    | none => exact .inl ⟨hm, rfl⟩
    | some v => exact .inr hm
  · rintro (⟨hm, rfl⟩ | hm)
    · exact ⟨none, hm, rfl⟩
    · exact ⟨some v, hm, rfl⟩

theorem ofValues?_eq_some_iff {a b c d e f : Json} {w : WireStatement} :
    ofValues? a b c d e f = some w ↔
      a = .text (some w.scope) ∧ b = .number (some w.subject.number.toNat) ∧
      c = .text (some w.modalVerb) ∧ d = verbJson w.mainVerb ∧ e = .text (some w.condition) ∧
      f = w.payload.toJson := by
  simp only [ofValues?, Option.bind_eq_bind, Option.bind_eq_some_iff, Json.text?_eq_some_iff,
    subject?_eq_some_iff, verb?_eq_some_iff, payload?_eq_some_iff, Option.some.injEq]
  constructor
  · rintro ⟨scope, rfl, subject, rfl, modal, rfl, verb, rfl, condition, rfl, payload, rfl, rfl⟩
    exact ⟨rfl, rfl, rfl, rfl, rfl, rfl⟩
  · rintro ⟨rfl, rfl, rfl, rfl, rfl, rfl⟩
    exact ⟨_, rfl, _, rfl, _, rfl, _, rfl, _, rfl, _, rfl, rfl⟩

theorem verbJson_eq_null_iff {verb : Option WireVerb} : verbJson verb = .null ↔ verb = none := by
  constructor
  · intro h
    match verb with
    | none => rfl
    | some (.branch v) => cases h
    | some (.custom n) => cases h
  · rintro rfl
    rfl

theorem ofMembers?_eq_some_iff {ms : List (Option String × Json)} {w : WireStatement} :
    ofMembers? ms = some w ↔
      (∀ m ∈ ms, m.1.isSome = true) ∧ (Fields.ofMembers ms).Hold w := by
  rw [ofMembers?]
  constructor
  · intro h
    split at h
    · next hkeys =>
      simp only [Option.bind_eq_bind, Option.bind_eq_some_iff, required_eq_some_iff,
        optional_eq_some_iff, ofValues?_eq_some_iff] at h
      obtain ⟨a, ha, b, hb, c, hc, d, hd, e, he, f, hf, rfl, rfl, rfl, rfl, rfl, rfl⟩ := h
      rw [Json.text.injEq, Option.some.injEq] at hc he
      rw [verbJson_eq_null_iff] at hd
      exact ⟨List.all_eq_true.mp hkeys, ha, hb, hc, hd, he, hf⟩
    · cases h
  · rintro ⟨hkeys, ha, hb, hc, hd, he, hf⟩
    rw [if_pos (List.all_eq_true.mpr hkeys)]
    simp only [Option.bind_eq_bind, Option.bind_eq_some_iff, required_eq_some_iff,
      optional_eq_some_iff, ofValues?_eq_some_iff]
    refine ⟨_, ha, _, hb, _, ?_, _, ?_, _, ?_, _, hf, rfl, rfl, rfl, rfl, rfl, rfl⟩
    · rw [Json.text.injEq, Option.some.injEq]
      exact hc
    · rw [verbJson_eq_null_iff]
      exact hd
    · rw [Json.text.injEq, Option.some.injEq]
      exact he

theorem ofJson?_of_gives {v : Json} {f : Fields} (hg : Gives v f) {w : WireStatement} :
    ofJson? v = some w ↔ f.Hold w := by
  cases hg with
  | object keys =>
    rw [ofJson?, ofMembers?_eq_some_iff]
    exact ⟨And.right, fun h => ⟨keys, h⟩⟩
  | array a b c d e g =>
    rw [ofJson?, ofValues?_eq_some_iff]
    constructor
    · rintro ⟨rfl, rfl, rfl, rfl, rfl, rfl⟩
      exact ⟨rfl, rfl, .inr rfl, .inr rfl, .inr rfl, rfl⟩
    · rintro ⟨ha, hb, hc, hd, he, hf⟩
      simp only [List.cons_ne_nil, false_and, false_or, List.cons.injEq, and_true]
        at ha hb hc hd he hf
      exact ⟨ha, hb, hc, hd, he, hf⟩

theorem gives_of_ofJson? {v : Json} {w : WireStatement} (h : ofJson? v = some w) :
    ∃ f, Gives v f := by
  rw [ofJson?.eq_def] at h
  split at h
  · exact ⟨_, .object (ofMembers?_eq_some_iff.mp h).1⟩
  · exact ⟨_, .array _ _ _ _ _ _⟩
  · cases h

theorem read?_iff_format :
    (∀ s w, read? s = some w ↔ ∃ v f, Document s v ∧ Gives v f ∧ f.Hold w) ∧
    ∀ s s' v v' f, Document s v → Document s' v' → Gives v f → Gives v' f →
      read? s = read? s' := by
  constructor
  · intro s w
    rw [read?, Option.bind_eq_some_iff]
    constructor
    · rintro ⟨v, hv, hw⟩
      obtain ⟨f, hf⟩ := gives_of_ofJson? hw
      exact ⟨v, f, Json.read?_eq_some_iff.mp hv, hf, (ofJson?_of_gives hf).mp hw⟩
    · rintro ⟨v, f, hv, hf, hw⟩
      exact ⟨v, Json.read?_eq_some_iff.mpr hv, (ofJson?_of_gives hf).mpr hw⟩
  · intro s s' v v' f hv hv' hf hf'
    rw [read?, read?, Json.read?_eq_some_iff.mpr hv, Json.read?_eq_some_iff.mpr hv',
      Option.bind_some, Option.bind_some]
    apply Option.ext
    intro w
    rw [ofJson?_of_gives hf, ofJson?_of_gives hf']

theorem read?_array_eq_object :
    read? "[\"A\",7,\"\",null,\"\",[\"x\"]]" =
      read? (" \x7b\"statement\" : [\"x\"], \"?\":[-0.5,1], \"\\u0073cope\":\"A\", " ++
        "\"mainVerb\":null, \"subject\":7, \"modalVerb\":\"\", \"condition\":\"\"\x7d\n") := by
  have hv : Json.read? "[\"A\",7,\"\",null,\"\",[\"x\"]]" =
      some (.array [.text (some "A"), .number (some 7), .text (some ""), .null, .text (some ""),
        .array [.text (some "x")]]) := by cbv
  have hv' : Json.read? (" \x7b\"statement\" : [\"x\"], \"?\":[-0.5,1], \"\\u0073cope\":\"A\", " ++
        "\"mainVerb\":null, \"subject\":7, \"modalVerb\":\"\", \"condition\":\"\"\x7d\n") =
      some (.object [(some "statement", .array [.text (some "x")]),
        (some "?", .array [.number none, .number (some 1)]), (some "scope", .text (some "A")),
        (some "mainVerb", .null), (some "subject", .number (some 7)),
        (some "modalVerb", .text (some "")), (some "condition", .text (some ""))]) := by cbv
  exact read?_iff_format.2 _ _ _ _ _ (Json.read?_eq_some_iff.mp hv) (Json.read?_eq_some_iff.mp hv')
    (.array _ _ _ _ _ _) (.object (by decide))

end WireStatement

end Predication
