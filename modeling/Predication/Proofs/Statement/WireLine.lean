import Predication.Proofs.Statement.WireRoundTrip
import Predication.Statement.Expansion

namespace Predication

namespace Json

def NoControls (cs : List Char) : Prop :=
  ∀ c ∈ cs, 0x20 ≤ c.toNat

theorem NoControls.cons {c : Char} {cs : List Char} (hc : 0x20 ≤ c.toNat) (h : NoControls cs) :
    NoControls (c :: cs) :=
  List.forall_mem_cons.mpr ⟨hc, h⟩

theorem NoControls.append {cs ds : List Char} (hc : NoControls cs) (hd : NoControls ds) :
    NoControls (cs ++ ds) :=
  List.forall_mem_append.mpr ⟨hc, hd⟩

theorem noControls_controlEscape {c : Char} (h : c.toNat < 0x20) :
    NoControls (controlEscape c) := by
  have hdigit : ∀ n < 16, 0x20 ≤ (Nat.digitChar n).toNat := by decide
  have hhigh := hdigit (c.toNat / 16) (by omega)
  have hlow := hdigit (c.toNat % 16) (by omega)
  have hfront : NoControls ['\\', 'u', '0', '0'] := by
    simp [NoControls]
  exact hfront.append (.cons hhigh (.cons hlow (by simp [NoControls])))

theorem noControls_escapeChar (c : Char) : NoControls (escapeChar c) := by
  have short (e : Char) (he : 0x20 ≤ e.toNat) : NoControls ['\\', e] :=
    .cons (by decide) (.cons he (by simp [NoControls]))
  unfold escapeChar
  split
  · exact short '"' (by decide)
  split
  · exact short '\\' (by decide)
  split
  · exact short 'b' (by decide)
  split
  · exact short 't' (by decide)
  split
  · exact short 'n' (by decide)
  split
  · exact short 'f' (by decide)
  split
  · exact short 'r' (by decide)
  split
  · next hc => exact noControls_controlEscape hc
  · next hc => simpa [NoControls] using hc

theorem noControls_quoted (s : String) : NoControls (quoted s) := by
  have hs : NoControls (s.toList.flatMap escapeChar) := by
    intro c hc
    obtain ⟨d, -, hd⟩ := List.mem_flatMap.mp hc
    exact noControls_escapeChar d c hd
  exact .append (.cons (by decide) hs) (by simp [NoControls])

theorem noControls_commas {css : List (List Char)} (h : ∀ cs ∈ css, NoControls cs) :
    NoControls (commas css) := by
  induction css with
  | nil => simp [commas, NoControls]
  | cons cs css ih =>
    obtain ⟨hc, hcs⟩ := List.forall_mem_cons.mp h
    cases css with
    | nil => exact hc
    | cons ds css => exact hc.append (.cons (by decide) (ih hcs))

theorem noControls_arrayOf {css : List (List Char)} (h : ∀ cs ∈ css, NoControls cs) :
    NoControls (arrayOf css) :=
  .append (.cons (by decide) (noControls_commas h)) (by simp [NoControls])

theorem noControls_memberOf (key : String) {value : List Char} (h : NoControls value) :
    NoControls (memberOf key value) :=
  (noControls_quoted key).append (.cons (by decide) h)

theorem noControls_objectOf {css : List (List Char)} (h : ∀ cs ∈ css, NoControls cs) :
    NoControls (objectOf css) :=
  .append (.cons (by decide) (noControls_commas h)) (by simp [NoControls])

end Json

open Json (NoControls Blank Spells)

theorem Text.noControls_natText (n : Nat) : NoControls (natText n).toList := by
  rw [toList_natText]
  intro c hc
  have hd : isDigit c = true := isDigit_of_mem_toDigits hc
  simp only [isDigit, Bool.and_eq_true, decide_eq_true_eq] at hd
  exact Nat.le_trans (by decide) (UInt32.le_iff_toNat_le.mp hd.1)

theorem WireVerb.noControls_text (v : WireVerb) : NoControls v.text := by
  cases v with
  | branch v =>
    exact Json.noControls_objectOf
      (by simpa using Json.noControls_memberOf "branch" (Json.noControls_quoted v))
  | custom n =>
    exact Json.noControls_objectOf
      (by simpa using Json.noControls_memberOf "custom" (Json.noControls_quoted n))

theorem Payload.noControls_text (p : Payload) : NoControls p.text := by
  cases p with
  | scalar s => exact Json.noControls_quoted s
  | list items =>
    refine Json.noControls_arrayOf ?_
    intro cs hcs
    obtain ⟨s, -, rfl⟩ := List.mem_map.mp hcs
    exact Json.noControls_quoted s

namespace WireStatement

theorem noControls_text (w : WireStatement) : NoControls w.text.toList := by
  have hm : ∀ cs ∈ w.members, NoControls cs := by
    have hscope := Json.noControls_memberOf "scope" (Json.noControls_quoted w.scope)
    have hsubject := Json.noControls_memberOf "subject"
      (Text.noControls_natText w.subject.number.toNat)
    have hmodal := Json.noControls_memberOf "modalVerb" (Json.noControls_quoted w.modalVerb)
    have hcond := Json.noControls_memberOf "condition" (Json.noControls_quoted w.condition)
    have hpayload := Json.noControls_memberOf "statement" w.payload.noControls_text
    cases hv : w.mainVerb with
    | none =>
      simp only [members, hv, List.cons_append, List.nil_append, List.forall_mem_cons]
      exact ⟨hscope, hsubject, hmodal, hcond, hpayload, by simp⟩
    | some v =>
      have hverb := Json.noControls_memberOf "mainVerb" v.noControls_text
      simp only [members, hv, List.cons_append, List.nil_append, List.forall_mem_cons]
      exact ⟨hscope, hsubject, hmodal, hverb, hcond, hpayload, by simp⟩
  rw [text, String.toList_ofList]
  exact Json.noControls_objectOf hm

theorem read?_padded (w : WireStatement) {s : String} {a b : List Char}
    (hs : s.toList = a ++ (w.text.toList ++ b)) (ha : Blank a) (hb : Blank b) :
    read? s = some w := by
  have ht : Spells w.text.toList (.object w.jsonMembers) := by
    rw [text, String.toList_ofList]
    exact Json.spells_objectOf w.spells_members
  have hp : Json.Padded Spells s.toList (.object w.jsonMembers) := by
    rw [hs]
    exact .mk ha ht hb
  rw [read?, Json.read?_of_padded hp]
  exact ofMembers?_jsonMembers w

def SelfContained (w : WireStatement) : Prop :=
  ∀ name, w.mainVerb ≠ some (.custom name)

theorem toWire_of_toStatement {actions : List Action} {w : WireStatement} {s : Statement}
    (h : w.toStatement actions = .ok s) : s.toWire = w := by
  unfold toStatement at h
  cases hb : WireVerb.bind actions w.mainVerb with
  | error e =>
    rw [hb] at h
    cases h
  | ok v =>
    rw [hb] at h
    cases h
    simp only [Statement.toWire, MainVerb.toWire_of_bind hb]

theorem toStatement_nil_iff {w : WireStatement} :
    (∃ s, w.toStatement [] = .ok s) ↔ w.SelfContained := by
  constructor
  · rintro ⟨s, hs⟩ name hn
    simp only [toStatement, hn, WireVerb.bind, List.find?_nil] at hs
    cases hs
  · intro h
    have hbound : ∃ v, WireVerb.bind [] w.mainVerb = .ok v := by
      cases hv : w.mainVerb with
      | none => exact ⟨.unbound, rfl⟩
      | some v =>
        cases v with
        | branch b => exact ⟨.branch b, rfl⟩
        | custom name => exact absurd hv (h name)
    obtain ⟨v, hv⟩ := hbound
    refine ⟨⟨w.scope, w.subject, w.modalVerb, v, w.condition, w.payload⟩, ?_⟩
    rw [toStatement, hv]

end WireStatement

namespace Statement

def ReadsAs (line : String) (s : Statement) : Prop :=
  ∃ w, WireStatement.read? line = some w ∧ w.toStatement [] = .ok s

theorem toStatement_toWire {s : Statement} (h : s.toWire.SelfContained) :
    s.toWire.toStatement [] = .ok s := by
  cases s with
  | mk scope subject modalVerb mainVerb condition payload =>
    cases mainVerb with
    | unbound => rfl
    | branch v => rfl
    | custom a => exact absurd rfl (h a.name)

theorem selfContained_of_toStatement {w : WireStatement} {s : Statement}
    (h : w.toStatement [] = .ok s) : s.toWire.SelfContained := by
  rw [WireStatement.toWire_of_toStatement h]
  exact WireStatement.toStatement_nil_iff.mp ⟨s, h⟩

theorem readsAs_of_blank {s : Statement} (h : s.toWire.SelfContained) {ending : List Char}
    (hb : Blank ending) : ReadsAs (s.toWire.text ++ String.ofList ending) s := by
  refine ⟨s.toWire, ?_, toStatement_toWire h⟩
  refine WireStatement.read?_padded s.toWire (a := []) (b := ending) ?_ (by simp [Blank]) hb
  simp

theorem readsAs_text {s : Statement} (h : s.toWire.SelfContained) :
    ReadsAs s.toWire.text s := by
  have hb : Blank [] := by simp [Blank]
  simpa using readsAs_of_blank h hb

theorem selfContained_of_mem_expand {axis : ExpansionAxis} {s t : Statement}
    (h : s.toWire.SelfContained) (ht : t ∈ s.expand axis) : t.toWire.SelfContained := by
  cases hp : s.payload with
  | scalar v =>
    have hs : t = s := by
      cases axis with
      | verbs => simpa [expand, expandVerbs_of_scalar hp] using ht
      | attributes => simpa [expand, expandAttributes_of_scalar hp] using ht
    rwa [hs]
  | list items =>
    cases axis with
    | verbs =>
      simp only [expand, expandVerbs, hp, List.mem_map] at ht
      obtain ⟨v, -, rfl⟩ := ht
      rintro name ⟨⟩
    | attributes =>
      simp only [expand, expandAttributes, hp, List.mem_map] at ht
      obtain ⟨c, -, rfl⟩ := ht
      exact h

end Statement

end Predication
