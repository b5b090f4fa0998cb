import Predication.Proofs.KeyMap
import Predication.Symbol

namespace Predication

inductive Fact.Place where
  | subject
  | predicate
  | object

def Fact.put (f : Fact) (t : Term) : Fact.Place → Fact
  | .subject => { f with subject := t }
  | .predicate => { f with predicate := t }
  | .object => { f with object := t }

namespace Object

/-- A symbol is made without members, and is then written to and renamed. -/
inductive Made : Object → Prop
  | plain {a : Object} (other : a.kind ≠ .symbol) : Made a
  | fresh (name : String) : Made (Symbol.toObject { name := name })
  | set {s : Symbol} {a : Object} (symbol : Made s.toObject) (value : Made a) (key : String) :
      Made (s.set key a).toObject
  | rename {s : Symbol} (symbol : Made s.toObject) (name : String) : Made (s.rename name).toObject

inductive Agrees : Object → Object → Prop
  | plain {a : Object} (other : a.kind ≠ .symbol) : Agrees a a
  | symbol (name : String) {ms ns : KeyMap String Object}
      (keys : ∀ k, (KeyMap.get? k ms).isSome = (KeyMap.get? k ns).isSome)
      (members : ∀ k a b, KeyMap.get? k ms = some a → KeyMap.get? k ns = some b → Agrees a b) :
      Agrees (.symbol name ms) (.symbol name ns)

inductive Tidy : Object → Prop
  | plain {a : Object} (other : a.kind ≠ .symbol) : Tidy a
  | symbol (name : String) {ms : KeyMap String Object} (ascending : KeyMap.Ascending ms)
      (members : ∀ k a, KeyMap.get? k ms = some a → Tidy a) : Tidy (.symbol name ms)

theorem tidy_toObject_iff (s : Symbol) :
    Tidy s.toObject ↔
      KeyMap.Ascending s.members ∧ ∀ k a, KeyMap.get? k s.members = some a → Tidy a := by
  constructor
  · intro h
    generalize ho : s.toObject = o at h
    cases h with
    | plain other =>
      subst ho
      exact absurd rfl other
    | symbol name ascending members =>
      cases ho
      exact ⟨ascending, members⟩
  · rintro ⟨ascending, members⟩
    exact .symbol s.name ascending members

theorem tidy_set {s : Symbol} {a : Object} (hs : Tidy s.toObject) (ha : Tidy a) (key : String) :
    Tidy (s.set key a).toObject := by
  obtain ⟨ascending, members⟩ := (tidy_toObject_iff s).mp hs
  refine (tidy_toObject_iff _).mpr ⟨ascending.insert key a, ?_⟩
  intro k b hb
  have hget : KeyMap.get? k (s.members.insert key a) = some b := hb
  rw [KeyMap.get?_insert] at hget
  split at hget
  · cases hget
    exact ha
  · exact members k b hget

theorem tidy_of_made {a : Object} (h : Made a) : Tidy a := by
  induction h with
  | plain other => exact .plain other
  | fresh name => exact .symbol name List.Pairwise.nil nofun
  | set symbol value key hs ha => exact tidy_set hs ha key
  | rename symbol name hs =>
    obtain ⟨ascending, members⟩ := (tidy_toObject_iff _).mp hs
    exact .symbol name ascending members

theorem agrees_symbol_iff (name name' : String) (ms ns : KeyMap String Object) :
    Agrees (.symbol name ms) (.symbol name' ns) ↔
      name = name' ∧ ∀ k, Option.Rel Agrees (ms.get? k) (ns.get? k) := by
  constructor
  · intro h
    cases h with
    | plain other => exact absurd rfl other
    | symbol _ keys members =>
      refine ⟨rfl, fun k => ?_⟩
      have hk := keys k
      have hm := members k
      cases ha : ms.get? k <;> cases hb : ns.get? k
      case none.none => exact .none
      case none.some => simp [ha, hb] at hk
      case some.none => simp [ha, hb] at hk
      case some.some a b => exact .some (hm a b ha hb)
  · rintro ⟨rfl, h⟩
    have isSome {a b : Option Object} (hab : Option.Rel Agrees a b) : a.isSome = b.isSome := by
      cases hab <;> rfl
    refine .symbol name (fun k => isSome (h k)) fun k a b ha hb => ?_
    have hk := h k
    rw [ha, hb] at hk
    cases hk with
    | some hab => exact hab

theorem agrees_self {a : Object} (h : Tidy a) : Agrees a a := by
  induction h with
  | plain other => exact .plain other
  | symbol name ascending members ih =>
    refine .symbol name (fun _ => rfl) ?_
    intro k a b ha hb
    cases ha.symm.trans hb
    exact ih k a ha

theorem Agrees.eq {a b : Object} (h : Agrees a b) (ha : Tidy a) (hb : Tidy b) : a = b := by
  induction h with
  | plain other => rfl
  | @symbol name ms ns keys members ih =>
    obtain ⟨hms, hmsTidy⟩ := (tidy_toObject_iff ⟨name, ms⟩).mp ha
    obtain ⟨hns, hnsTidy⟩ := (tidy_toObject_iff ⟨name, ns⟩).mp hb
    have hget : ∀ k, KeyMap.get? k ms = KeyMap.get? k ns := by
      intro k
      have hk := keys k
      cases hm : KeyMap.get? k ms with
      | none =>
        rw [hm] at hk
        exact (Option.isNone_iff_eq_none.mp (by simpa using hk.symm)).symm
      | some a =>
        rw [hm] at hk
        obtain ⟨b, hn⟩ := Option.isSome_iff_exists.mp hk.symm
        rw [hn, ih k a b hm hn (hmsTidy k a hm) (hnsTidy k b hn)]
    exact congrArg (Object.symbol name) (KeyMap.Ascending.ext hms hns hget)

theorem same_iff_agrees {a b : Object} (ha : Made a) (hb : Made b) :
    a.same b = true ↔ Agrees a b := by
  rw [same_iff]
  constructor
  · rintro rfl
    exact agrees_self (tidy_of_made ha)
  · intro h
    exact h.eq (tidy_of_made ha) (tidy_of_made hb)

structure Interchangeable (a b : Object) : Prop where
  kind : a.kind = b.kind
  render : a.render = b.render
  term : a.toTerm = b.toTerm
  member : ∀ (s : Symbol) (key : String), (s.set key a).toObject.same (s.set key b).toObject = true
  fact : ∀ (f pattern : Fact) (p : Fact.Place),
    (f.put a.toTerm p).fits pattern = (f.put b.toTerm p).fits pattern
  pattern : ∀ (f pattern : Fact) (p : Fact.Place),
    f.fits (pattern.put a.toTerm p) = f.fits (pattern.put b.toTerm p)

structure Congruent (a b c : Object) : Prop where
  agrees : Made a → Made b → (a.same b = true ↔ Agrees a b)
  self : a.same a = true
  symm : a.same b = b.same a
  trans : a.same b = true → b.same c = true → a.same c = true
  interchangeable : a.same b = true → Interchangeable a b

theorem same_congruence (a b c : Object) : Congruent a b c where
  agrees := same_iff_agrees
  self := (same_iff a a).mpr rfl
  symm := by
    rw [Bool.eq_iff_iff, same_iff, same_iff]
    exact eq_comm
  trans hab hbc := by
    rw [same_iff] at hab hbc ⊢
    exact hab.trans hbc
  interchangeable h := by
    obtain rfl := (same_iff a b).mp h
    constructor
    case kind => rfl
    case render => rfl
    case term => rfl
    case member => exact fun s key => (same_iff _ _).mpr rfl
    case fact => exact fun _ _ _ => rfl
    case pattern => exact fun _ _ _ => rfl

theorem same_congruence_either_order :
    Agrees (Symbol.toObject (((Symbol.mk "david" []).set "hand" .null).set "leg"
        (((Symbol.mk "leg" []).set "a" (.number 1)).set "b" (.text "x")).toObject))
      (Symbol.toObject (((Symbol.mk "david" []).set "leg"
        (((Symbol.mk "leg" []).set "b" (.text "x")).set "a" (.number 1)).toObject).set "hand"
          .null)) ∧
    Interchangeable (Symbol.toObject ((Symbol.mk "leg" []).set "a" (.number 1)))
      (Symbol.toObject (((Symbol.mk "leg" []).set "a" .null).set "a" (.number 1))) ∧
    (Object.null).same .null = true := by
  refine ⟨?_, ?_, ?_⟩
  · have leg {a b : Object} (ha : a.kind ≠ .symbol) (hb : b.kind ≠ .symbol) (k l : String) :
        Made (((Symbol.mk "leg" []).set k a).set l b).toObject :=
      .set (.set (.fresh "leg") (.plain ha) k) (.plain hb) l
    refine ((same_congruence _ _ .null).agrees ?_ ?_).mp (by decide)
    · exact .set (.set (.fresh _) (.plain (by decide)) _) (leg (by decide) (by decide) _ _) _
    · exact .set (.set (.fresh _) (leg (by decide) (by decide) _ _) _) (.plain (by decide)) _
  · exact (same_congruence _ _ .null).interchangeable (by decide)
  · exact (same_congruence .null .null .null).trans (by decide) (by decide)

end Object

end Predication
