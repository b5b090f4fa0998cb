import Predication.Text.Blank
import Mathlib.Data.List.Basic

namespace Predication.Text

def Blanks (cs : List Char) : Prop :=
  ∀ c ∈ cs, isBlank c = true

def IsToken (t : List Char) : Prop :=
  t ≠ [] ∧ ∀ c ∈ t, isBlank c = false

/-- The text has these tokens: blanks stand before each of them, after the last one and, at least
one, between any two. -/
inductive Spaced : List (List Char) → List Char → Prop
  | blanks {gap : List Char} (h : Blanks gap) : Spaced [] gap
  | token {gap t cs : List Char} {ts : List (List Char)} (hgap : Blanks gap) (ht : IsToken t)
      (hcs : ∀ c ∈ cs.head?, isBlank c = true) (h : Spaced ts cs) :
      Spaced (t :: ts) (gap ++ (t ++ cs))

theorem blanks_nil : Blanks [] := by
  simp [Blanks]

theorem Blanks.append {cs ds : List Char} (hc : Blanks cs) (hd : Blanks ds) : Blanks (cs ++ ds) :=
  List.forall_mem_append.mpr ⟨hc, hd⟩

theorem pieces_cons_of_blank {c : Char} (h : isBlank c = true) (cs : List Char) :
    pieces (c :: cs) = [] :: pieces cs := by
  rw [pieces, if_pos h]

theorem pieces_append {t cs p : List Char} {ps : List (List Char)}
    (ht : ∀ c ∈ t, isBlank c = false) (hp : pieces cs = p :: ps) :
    pieces (t ++ cs) = (t ++ p) :: ps := by
  induction t with
  | nil => exact hp
  | cons c t ih =>
    have hc : isBlank c = false := ht c List.mem_cons_self
    have hrest := ih fun d hd => ht d (List.mem_cons_of_mem c hd)
    rw [List.cons_append, pieces, if_neg (by simp [hc]), hrest]
    rfl

theorem tokens_cons_of_blank {c : Char} (h : isBlank c = true) (cs : List Char) :
    tokens (c :: cs) = tokens cs := by
  simp [tokens, pieces_cons_of_blank h]

theorem tokens_append_of_blanks {gap : List Char} (h : Blanks gap) (cs : List Char) :
    tokens (gap ++ cs) = tokens cs := by
  induction gap with
  | nil => rfl
  | cons c gap ih =>
    obtain ⟨hc, hgap⟩ := List.forall_mem_cons.mp h
    rw [List.cons_append, tokens_cons_of_blank hc, ih hgap]

theorem tokens_of_blanks {gap : List Char} (h : Blanks gap) : tokens gap = [] := by
  have hnil := tokens_append_of_blanks h []
  rw [List.append_nil] at hnil
  rw [hnil]
  rfl

theorem tokens_append_of_token {t cs : List Char} (ht : IsToken t)
    (hcs : ∀ c ∈ cs.head?, isBlank c = true) : tokens (t ++ cs) = t :: tokens cs := by
  have hfront : ∃ ps, pieces cs = [] :: ps := by
    cases cs with
    | nil => exact ⟨[], rfl⟩
    | cons c cs => exact ⟨pieces cs, pieces_cons_of_blank (hcs c rfl) cs⟩
  obtain ⟨ps, hps⟩ := hfront
  have ht' : t.isEmpty = false := List.isEmpty_eq_false_iff.mpr ht.1
  rw [tokens, pieces_append ht.2 hps, tokens, hps]
  simp [ht']

theorem tokens_of_spaced {ts : List (List Char)} {cs : List Char} (h : Spaced ts cs) :
    tokens cs = ts := by
  induction h with
  | blanks h => exact tokens_of_blanks h
  | token hgap ht hcs _ ih => rw [tokens_append_of_blanks hgap, tokens_append_of_token ht hcs, ih]

theorem Spaced.prepend {ts : List (List Char)} {gap cs : List Char} (hgap : Blanks gap)
    (h : Spaced ts cs) : Spaced ts (gap ++ cs) := by
  cases h with
  | blanks h => exact .blanks (hgap.append h)
  | token hfront ht hcs h =>
    rw [← List.append_assoc]
    exact .token (hgap.append hfront) ht hcs h

theorem Spaced.exists_cons {ts : List (List Char)} {c : Char} {cs : List Char}
    (hc : isBlank c = false) (h : Spaced ts cs) : ∃ us, Spaced us (c :: cs) := by
  have hsingle : IsToken [c] := ⟨List.cons_ne_nil c [], by simpa using hc⟩
  cases h with
  | blanks h =>
    have hcs : ∀ d ∈ cs.head?, isBlank d = true := fun d hd => h d (List.mem_of_mem_head? hd)
    exact ⟨[[c]], .token blanks_nil hsingle hcs (.blanks h)⟩
  | @token gap t rest ts hgap ht hrest h =>
    cases gap with
    | nil =>
      have hlonger : IsToken (c :: t) :=
        ⟨List.cons_ne_nil c t, List.forall_mem_cons.mpr ⟨hc, ht.2⟩⟩
      exact ⟨(c :: t) :: ts, .token blanks_nil hlonger hrest h⟩
    | cons b gap =>
      have hb : isBlank b = true := hgap b List.mem_cons_self
      have hcs : ∀ d ∈ (b :: gap ++ (t ++ rest)).head?, isBlank d = true := by
        simpa using hb
      exact ⟨[c] :: t :: ts, .token blanks_nil hsingle hcs (.token hgap ht hrest h)⟩

theorem exists_spaced (cs : List Char) : ∃ ts, Spaced ts cs := by
  induction cs with
  | nil => exact ⟨[], .blanks blanks_nil⟩
  | cons c cs ih =>
    obtain ⟨ts, h⟩ := ih
    cases hc : isBlank c with
    | true =>
      have hgap : Blanks [c] := by
        simpa [Blanks] using hc
      exact ⟨ts, h.prepend hgap⟩
    | false => exact h.exists_cons hc

theorem tokens_eq_iff {ts : List (List Char)} {cs : List Char} :
    tokens cs = ts ↔ Spaced ts cs := by
  constructor
  · rintro rfl
    obtain ⟨ts, h⟩ := exists_spaced cs
    rw [tokens_of_spaced h]
    exact h
  · exact tokens_of_spaced

theorem Spaced.append {ts us : List (List Char)} {as gap bs : List Char} (ha : Spaced ts as)
    (hne : gap ≠ []) (hgap : Blanks gap) (hb : Spaced us bs) :
    Spaced (ts ++ us) (as ++ (gap ++ bs)) := by
  induction ha with
  | blanks h => exact (hb.prepend hgap).prepend h
  | @token front t cs ts hfront ht hcs _ ih =>
    rw [List.append_assoc, List.append_assoc, List.cons_append]
    refine .token hfront ht ?_ ih
    intro c hc
    cases cs with
    | nil =>
      obtain ⟨b, gap, rfl⟩ := List.exists_cons_of_ne_nil hne
      cases hc
      exact hgap c List.mem_cons_self
    | cons d cs => exact hcs c hc

theorem tokens_append_gap {gap : List Char} (hne : gap ≠ []) (hgap : Blanks gap)
    (as bs : List Char) : tokens (as ++ (gap ++ bs)) = tokens as ++ tokens bs :=
  tokens_of_spaced ((tokens_eq_iff.mp rfl).append hne hgap (tokens_eq_iff.mp rfl))

theorem spaced_intercalate {gap : String} (hne : gap ≠ "") (hgap : Blanks gap.toList)
    {ts : List String} (h : ∀ t ∈ ts, IsToken t.toList) :
    Spaced (ts.map String.toList) (gap.intercalate ts).toList := by
  have hne' : gap.toList ≠ [] := fun hnil => hne (String.toList_eq_nil_iff.mp hnil)
  induction ts with
  | nil => exact .blanks blanks_nil
  | cons t ts ih =>
    obtain ⟨ht, hts⟩ := List.forall_mem_cons.mp h
    have hsingle : Spaced [t.toList] t.toList := by
      simpa using Spaced.token blanks_nil ht (by simp) (.blanks blanks_nil)
    cases ts with
    | nil =>
      rw [String.intercalate_singleton]
      exact hsingle
    | cons u us =>
      rw [String.intercalate_cons_cons, String.toList_append, String.toList_append,
        List.append_assoc]
      exact hsingle.append hne' hgap (ih hts)

end Predication.Text
