import Predication.Proofs.Json.Number
import Predication.Proofs.Json.Quoted
import Mathlib.Data.List.Forall2

namespace Predication.Json

open Text (isDigit)

def Spells (cs : List Char) (v : Json) : Prop :=
  ∀ n rest, 2 * cs.length ≤ n → Breaks rest → readValue n (cs ++ rest) = some (v, rest)

def SpellsMember (cs : List Char) (m : Option String × Json) : Prop :=
  ∃ key value v, cs = memberOf key value ∧ m = (some key, v) ∧ Spells value v

theorem spellsMember {value : List Char} {v : Json} (key : String) (h : Spells value v) :
    SpellsMember (memberOf key value) (some key, v) :=
  ⟨key, value, v, rfl, rfl, h⟩

section Blank

variable {a rest : List Char}

theorem isBlank_iff {c : Char} : isBlank c = true ↔ c = ' ' ∨ c = '\t' ∨ c = '\n' ∨ c = '\r' := by
  simp only [isBlank, Bool.or_eq_true, beq_iff_eq, or_assoc]

theorem blank_nil : Blank [] := by
  simp [Blank]

theorem skipBlank_cons {c : Char} (h : isBlank c = false) (cs : List Char) :
    skipBlank (c :: cs) = c :: cs := by
  simp [skipBlank, h]

theorem skipBlank_append (h : Blank a) (cs : List Char) : skipBlank (a ++ cs) = skipBlank cs :=
  List.dropWhile_append_of_pos fun c hc => isBlank_iff.mpr (h c hc)

theorem Blank.breaks_append (h : Blank a) (hr : Breaks rest) : Breaks (a ++ rest) := by
  cases a with
  | nil => exact hr
  | cons c a =>
    rcases h c List.mem_cons_self with rfl | rfl | rfl | rfl <;>
      exact breaks_cons (by decide) (by decide) _

theorem readValue_append (h : Blank a) (n : Nat) (cs : List Char) :
    readValue n (a ++ cs) = readValue n cs := by
  cases n with
  | zero => rw [readValue_zero, readValue_zero]
  | succ n => rw [readValue, readValue, skipBlank_append h]

end Blank

theorem spells_of_succ {cs : List Char} {v : Json} (hne : cs ≠ [])
    (h : ∀ n rest, 2 * cs.length ≤ n + 1 → Breaks rest →
      readValue (n + 1) (cs ++ rest) = some (v, rest)) : Spells cs v := by
  intro n rest hn hr
  have hpos : 0 < cs.length := List.length_pos_iff.mpr hne
  obtain ⟨k, rfl⟩ : ∃ k, n = k + 1 := ⟨n - 1, by omega⟩
  exact h k rest hn hr

theorem spells_null : Spells ['n', 'u', 'l', 'l'] .null := by
  refine spells_of_succ (List.cons_ne_nil _ _) fun n rest _ _ => ?_
  rw [readValue]
  rfl

theorem spells_truth : Spells ['t', 'r', 'u', 'e'] (.truth true) := by
  refine spells_of_succ (List.cons_ne_nil _ _) fun n rest _ _ => ?_
  rw [readValue]
  rfl

theorem spells_falsehood : Spells ['f', 'a', 'l', 's', 'e'] (.truth false) := by
  refine spells_of_succ (List.cons_ne_nil _ _) fun n rest _ _ => ?_
  rw [readValue]
  rfl

theorem spells_text {cs : List Char} {t : Option String} (h : Quoted cs t) :
    Spells cs (.text t) := by
  obtain ⟨body, rfl, hread⟩ := readText_of_quoted h
  refine spells_of_succ (List.cons_ne_nil _ _) fun n rest _ _ => ?_
  rw [readValue, List.cons_append, skipBlank_cons (by decide)]
  simp only [hread, Option.map_some]

theorem spells_quoted (s : String) : Spells (quoted s) (.text (some s)) :=
  spells_text (quoted_quoted s)

theorem head_of_number {cs : List Char} {value : Option Nat} (h : Number cs value) :
    ∃ c ds, cs = c :: ds ∧ (isDigit c = true ∨ c = '-') := by
  have digits (n : Nat) (tail : List Char) :
      ∃ c ds, Nat.toDigits 10 n ++ tail = c :: ds ∧ (isDigit c = true ∨ c = '-') := by
    cases hd : Nat.toDigits 10 n with
    | nil => exact absurd hd Nat.toDigits_ne_nil
    | cons d ds =>
      exact ⟨d, ds ++ tail, rfl, .inl (Text.isDigit_of_mem_toDigits (hd ▸ List.mem_cons_self))⟩
  cases h with
  | plain n =>
    rw [← List.append_nil (Nat.toDigits 10 n)]
    exact digits n []
  | tail n hf he hne => exact digits n _
  | negative n hf he => exact ⟨'-', _, rfl, .inr rfl⟩

theorem spells_number {cs : List Char} {value : Option Nat} (h : Number cs value) :
    Spells cs (.number value) := by
  obtain ⟨c, ds, rfl, hc⟩ := head_of_number h
  have hne {d : Char} (hd : isDigit d = false) (hm : d ≠ '-') : c ≠ d := by
    rcases hc with hc | rfl
    · exact ne_of_isDigit hc hd
    · exact hm.symm
  have hb : isBlank c = false := by
    simp only [isBlank, Bool.or_eq_false_iff, beq_eq_false_iff_ne]
    exact ⟨⟨⟨hne (by decide) (by decide), hne (by decide) (by decide)⟩,
      hne (by decide) (by decide)⟩, hne (by decide) (by decide)⟩
  refine spells_of_succ (List.cons_ne_nil _ _) fun n rest _ hr => ?_
  have hn := readNumber_number h hr
  rw [List.cons_append] at hn ⊢
  rw [readValue, skipBlank_cons hb]
  -- neither a digit nor a sign begins another kind of value
  split
  case h_7 => exact hn
  all_goals
    rename_i heq
    exact absurd (List.cons.inj heq).1 (hne (by decide) (by decide))

theorem spells_toDigits (n : Nat) : Spells (Nat.toDigits 10 n) (.number (some n)) :=
  spells_number (.plain n)

section Items

variable {cs : List Char} {vs : List Json}

theorem readValue_padded {v : Json} {n : Nat} {rest : List Char} (h : Padded Spells cs v)
    (hn : 2 * cs.length ≤ n) (hr : Breaks rest) :
    ∃ b, Blank b ∧ readValue n (cs ++ rest) = some (v, b ++ rest) := by
  cases h with
  | @mk a ds b v ha hs hb =>
    rw [List.length_append, List.length_append] at hn
    refine ⟨b, hb, ?_⟩
    rw [List.append_assoc, List.append_assoc, readValue_append ha,
      hs n (b ++ rest) (by omega) (hb.breaks_append hr)]

theorem readItems_of_close {after : List Char} (h : skipBlank cs = ']' :: after) (n : Nat) :
    readItems n cs = none := by
  have hv (m : Nat) : readValue m cs = none := by
    cases m with
    | zero => rw [readValue_zero]
    | succ m =>
      rw [readValue, h]
      rfl
  cases n with
  | zero => rw [readItems_zero]
  | succ n => rw [readItems, hv]

theorem readItems_separated (h : Separated (Padded Spells) cs vs) (n : Nat)
    (hn : 2 * cs.length + 1 ≤ n) (rest : List Char) :
    readItems n (cs ++ ']' :: rest) = some (vs, rest) := by
  induction h generalizing n with
  | last hv =>
    obtain ⟨k, rfl⟩ : ∃ k, n = k + 1 := ⟨n - 1, by omega⟩
    have hclose : Breaks (']' :: rest) := breaks_cons (by decide) (by decide) _
    obtain ⟨b, hb, hread⟩ := readValue_padded hv (n := k) (by omega) hclose
    rw [readItems, hread]
    simp only [skipBlank_append hb, skipBlank_cons (c := ']') (by decide)]
  | @more cs v ds vs hv hs ih =>
    obtain ⟨k, rfl⟩ : ∃ k, n = k + 1 := ⟨n - 1, by omega⟩
    rw [List.length_append, List.length_cons] at hn
    have hcomma : Breaks (',' :: (ds ++ ']' :: rest)) := breaks_cons (by decide) (by decide) _
    obtain ⟨b, hb, hread⟩ := readValue_padded hv (n := k) (by omega) hcomma
    have hrest := ih k (by omega)
    rw [List.append_assoc, List.cons_append, readItems, hread]
    simp only [skipBlank_append hb, skipBlank_cons (c := ',') (by decide), hrest, Option.map_some]

theorem spells_noItems (h : Blank cs) : Spells ('[' :: (cs ++ [']'])) (.array []) := by
  refine spells_of_succ (List.cons_ne_nil _ _) fun n rest _ _ => ?_
  rw [readValue, List.cons_append, skipBlank_cons (by decide)]
  simp only [List.append_assoc, List.singleton_append, skipBlank_append h,
    skipBlank_cons (c := ']') (by decide)]

theorem spells_items (h : Separated (Padded Spells) cs vs) :
    Spells ('[' :: (cs ++ [']'])) (.array vs) := by
  refine spells_of_succ (List.cons_ne_nil _ _) fun n rest hn _ => ?_
  rw [List.length_cons, List.length_append] at hn
  have hi := readItems_separated h n (by omega) rest
  rw [readValue, List.cons_append, skipBlank_cons (by decide), List.append_assoc,
    List.singleton_append]
  simp only
  split
  · next after hc =>
    rw [readItems_of_close hc] at hi
    cases hi
  · rw [hi]
    rfl

end Items

section Members

variable {cs : List Char} {ms : List (Option String × Json)}

theorem read_of_member {m : Option String × Json} {n : Nat} {rest : List Char}
    (h : Member Spells cs m) (hn : 2 * cs.length ≤ n) (hr : Breaks rest) :
    ∃ r mid r' b, skipBlank (cs ++ rest) = '"' :: r ∧ readText r = some (m.1, mid) ∧
      skipBlank mid = ':' :: r' ∧ readValue n r' = some (m.2, b ++ rest) ∧ Blank b := by
  cases h with
  | @mk ks k cs v hk hv =>
    rw [List.length_append, List.length_cons] at hn
    obtain ⟨b, hb, hread⟩ := readValue_padded hv (n := n) (by omega) hr
    cases hk with
    | @mk a qs c k ha hq hc =>
      obtain ⟨body, rfl, hkey⟩ := readText_of_quoted hq
      refine ⟨body ++ (c ++ ':' :: (cs ++ rest)), _, cs ++ rest, b, ?_, hkey _, ?_, hread, hb⟩
      · simp only [List.append_assoc, List.cons_append]
        rw [skipBlank_append ha, skipBlank_cons (by decide)]
      · rw [skipBlank_append hc, skipBlank_cons (by decide)]

theorem readMembers_separated (h : Separated (Member Spells) cs ms) (n : Nat)
    (hn : 2 * cs.length + 1 ≤ n) (rest : List Char) :
    readMembers n (cs ++ '\x7d' :: rest) = some (ms, rest) := by
  induction h generalizing n with
  | last hm =>
    obtain ⟨k, rfl⟩ : ∃ k, n = k + 1 := ⟨n - 1, by omega⟩
    have hclose : Breaks ('\x7d' :: rest) := breaks_cons (by decide) (by decide) _
    obtain ⟨r, mid, r', b, hs, hkey, hcolon, hread, hb⟩ :=
      read_of_member hm (n := k) (by omega) hclose
    rw [readMembers, hs]
    simp only [hkey, hcolon, hread, skipBlank_append hb, skipBlank_cons (c := '\x7d') (by decide)]
  | @more cs m ds ms hm hs ih =>
    obtain ⟨k, rfl⟩ : ∃ k, n = k + 1 := ⟨n - 1, by omega⟩
    rw [List.length_append, List.length_cons] at hn
    have hcomma : Breaks (',' :: (ds ++ '\x7d' :: rest)) := breaks_cons (by decide) (by decide) _
    obtain ⟨r, mid, r', b, hquote, hkey, hcolon, hread, hb⟩ :=
      read_of_member hm (n := k) (by omega) hcomma
    have hrest := ih k (by omega)
    rw [List.append_assoc, List.cons_append, readMembers, hquote]
    simp only [hkey, hcolon, hread, skipBlank_append hb, skipBlank_cons (c := ',') (by decide),
      hrest, Option.map_some]

theorem spells_noMembers (h : Blank cs) : Spells ('\x7b' :: (cs ++ ['\x7d'])) (.object []) := by
  refine spells_of_succ (List.cons_ne_nil _ _) fun n rest _ _ => ?_
  rw [readValue, List.cons_append, skipBlank_cons (by decide)]
  simp only [List.append_assoc, List.singleton_append, skipBlank_append h,
    skipBlank_cons (c := '\x7d') (by decide)]

theorem spells_members (h : Separated (Member Spells) cs ms) :
    Spells ('\x7b' :: (cs ++ ['\x7d'])) (.object ms) := by
  refine spells_of_succ (List.cons_ne_nil _ _) fun n rest hn _ => ?_
  rw [List.length_cons, List.length_append] at hn
  have hi := readMembers_separated h n (by omega) rest
  rw [readValue, List.cons_append, skipBlank_cons (by decide), List.append_assoc,
    List.singleton_append]
  simp only
  split
  · next after hc =>
    obtain ⟨k, rfl⟩ : ∃ k, n = k + 1 := ⟨n - 1, by omega⟩
    rw [readMembers, hc] at hi
    cases hi
  · rw [hi]
    rfl

end Members

theorem spells_value {cs : List Char} {v : Json} (h : Value cs v) : Spells cs v :=
  @Value.rec (fun cs v _ => Spells cs v) (fun cs vs _ => Separated (Padded Spells) cs vs)
    (fun cs ms _ => Separated (Member Spells) cs ms) (fun cs v _ => Padded Spells cs v)
    (fun cs m _ => Member Spells cs m)
    spells_null spells_truth spells_falsehood spells_number spells_text
    spells_noItems (fun _ hs => spells_items hs) spells_noMembers (fun _ hs => spells_members hs)
    (fun _ hv => .last hv) (fun _ _ hv hs => .more hv hs)
    (fun _ hm => .last hm) (fun _ _ hm hs => .more hm hs)
    (fun ha _ hb hv => .mk ha hv hb) (fun hk _ hv => .mk hk hv) cs v h

theorem Padded.bare {α : Type} {P : List Char → α → Prop} {cs : List Char} {x : α} (h : P cs x) :
    Padded P cs x := by
  have hp : Padded P ([] ++ (cs ++ [])) x := .mk blank_nil h blank_nil
  rw [List.nil_append, List.append_nil] at hp
  exact hp

theorem separated_commas {α : Type} {P : List Char → α → Prop} {cs : List Char} {x : α}
    {css : List (List Char)} {xs : List α} (h : P cs x) (hs : List.Forall₂ P css xs) :
    Separated P (commas (cs :: css)) (x :: xs) := by
  induction hs generalizing cs x with
  | nil => exact .last h
  | cons h' _ ih => exact .more h (ih h')

theorem spells_arrayOf {xs : List (List Char)} {vs : List Json} (hs : List.Forall₂ Spells xs vs) :
    Spells (arrayOf xs) (.array vs) := by
  cases hs with
  | nil => exact spells_noItems blank_nil
  | cons h hs => exact spells_items (separated_commas (.bare h) (hs.imp fun _ _ => .bare))

theorem SpellsMember.member {cs : List Char} {m : Option String × Json} (h : SpellsMember cs m) :
    Member Spells cs m := by
  obtain ⟨key, value, v, rfl, rfl, hv⟩ := h
  exact .mk (.bare (quoted_quoted key)) (.bare hv)

theorem spells_objectOf {xs : List (List Char)} {ms : List (Option String × Json)}
    (hs : List.Forall₂ SpellsMember xs ms) : Spells (objectOf xs) (.object ms) := by
  cases hs with
  | nil => exact spells_noMembers blank_nil
  | cons h hs =>
    exact spells_members (separated_commas h.member (hs.imp fun _ _ => SpellsMember.member))

theorem read?_of_padded {s : String} {v : Json} (h : Padded Spells s.toList v) :
    read? s = some v := by
  obtain ⟨b, hb, hread⟩ :=
    readValue_padded h (n := 2 * s.toList.length + 2) (by omega) breaks_nil
  rw [List.append_nil, List.append_nil] at hread
  rw [read?, hread]
  simp only
  rw [if_pos (List.all_eq_true.mpr fun c hc => isBlank_iff.mpr (hb c hc))]

theorem read?_of_spells {cs : List Char} {v : Json} (h : Spells cs v) :
    read? (String.ofList cs) = some v := by
  refine read?_of_padded (.bare ?_)
  rw [String.toList_ofList]
  exact h

end Predication.Json
