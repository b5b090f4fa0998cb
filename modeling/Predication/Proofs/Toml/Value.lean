import Predication.Proofs.Toml.Key
import Predication.Proofs.Toml.Naming

namespace Predication.Toml

open Definition (textOf?)

section Filler

variable {cs a rest : List Char}

def Settled (rest : List Char) : Prop :=
  Avoids [' ', '\t', '#', '\n', '\r'] rest

theorem Settled.skipSpace (h : Settled rest) : skipSpace rest = rest := by
  refine skipSpace_of_stops fun c hc => ?_
  rw [Bool.eq_false_iff, Ne, isSpace_iff]
  rintro (rfl | rfl)
  · exact h ' ' (by simp) hc
  · exact h '\t' (by simp) hc

theorem Settled.skipNewline? (h : Settled rest) : skipNewline? rest = none := by
  rw [Toml.skipNewline?.eq_def]
  split
  · exact absurd rfl (h '\n' (by simp))
  · exact absurd rfl (h '\r' (by simp))
  · rfl

theorem skipNewline?_append {n : List Char} (hn : Newline n) (rest : List Char) :
    skipNewline? (n ++ rest) = some rest := by
  cases hn <;> rfl

theorem Newline.stops {n : List Char} (hn : Newline n) (rest : List Char) :
    Stops isPlain (n ++ rest) := by
  cases hn <;> exact stops_cons rfl _

theorem Newline.stops_space {n : List Char} (hn : Newline n) (rest : List Char) :
    Stops isSpace (n ++ rest) := by
  cases hn <;> exact stops_cons rfl _

theorem skipFiller_settled (h : Settled rest) (fuel : Nat) : skipFiller fuel rest = rest := by
  cases fuel with
  | zero => rfl
  | succ fuel =>
    rw [skipFiller, h.skipSpace]
    split
    · exact absurd rfl (h '#' (by simp))
    · rw [h.skipNewline?]

theorem skipFiller_newline {c n : List Char} (hc : Comment c) (hn : Newline n) (fuel : Nat)
    (rest : List Char) :
    skipFiller (fuel + 1) (c ++ (n ++ rest)) = skipFiller fuel rest := by
  cases hc with
  | absent =>
    rw [List.nil_append, skipFiller, skipSpace_of_stops (hn.stops_space rest)]
    cases hn <;> rfl
  | note h =>
    have hplain : ∀ c ∈ _, isPlain c = true := fun c hc => isPlain_iff.mpr (h c hc)
    rw [List.cons_append, skipFiller, skipSpace_cons (by decide)]
    simp only
    rw [dropWhile_run hplain (hn.stops rest), skipNewline?_append hn]

theorem skipFiller_append (ha : Filler a) (h : Settled rest) {fuel : Nat} (hf : a.length ≤ fuel) :
    skipFiller fuel (a ++ rest) = rest := by
  induction ha generalizing fuel with
  | nil => exact skipFiller_settled h fuel
  | @space c cs hc hs ih =>
    obtain ⟨fuel, rfl⟩ := Nat.exists_eq_add_of_le' hf
    have hmore := ih (show cs.length ≤ fuel + cs.length + 1 by omega)
    rw [List.length_cons, ← Nat.add_assoc, List.cons_append, skipFiller, skipSpace,
      List.dropWhile_cons_of_pos (isSpace_iff.mpr hc)]
    exact hmore
  | @newline c n cs hc hn hs ih =>
    have hpos : 0 < n.length := by
      cases hn <;> exact Nat.succ_pos _
    rw [List.length_append, List.length_append] at hf
    obtain ⟨fuel, rfl⟩ : ∃ k, fuel = k + 1 := ⟨fuel - 1, by omega⟩
    rw [List.append_assoc, List.append_assoc, skipFiller_newline hc hn]
    exact ih (by omega)

theorem skipAllFiller_append (ha : Filler a) (h : Settled rest) :
    skipAllFiller (a ++ rest) = rest :=
  skipFiller_append ha h (by simp)

theorem Filler.ends (hb : Filler a) {c : Char} (hc : c = ',' ∨ c = ']') (rest : List Char) :
    Ends (a ++ c :: rest) := by
  induction hb with
  | nil => exact ends_cons (by rcases hc with rfl | rfl <;> decide) rest
  | space hs h ih => exact ih.cons_space (isSpace_iff.mpr hs)
  | newline hn he h ih =>
    rw [List.append_assoc, List.append_assoc]
    cases hn with
    | absent => cases he <;> exact ends_cons (by decide) _
    | note => exact ends_cons (by decide) _

end Filler

section Value

variable {limit depth : Nat} {cs rest : List Char} {v : Option String}

def Spells (limit depth : Nat) (cs : List Char) (v : Option String) : Prop :=
  ∀ fuel d rest, cs.length ≤ fuel → depth ≤ d → Ends rest →
    ∃ t, textOf? t = v ∧ readValue limit fuel d (cs ++ rest) = some (t, rest)

theorem Value.head (h : Value limit depth cs v) :
    ∃ c r, cs = c :: r ∧ (c ∈ ['"', '\x27', '[', '\x7b'] ∨ isScalarChar c = true) := by
  cases h with
  | text h => cases h <;> exact ⟨_, _, rfl, .inl (by decide)⟩
  | scalar h =>
    obtain ⟨c, r, rfl, hc⟩ := h.head
    exact ⟨c, r, rfl, .inr hc⟩
  | array h => exact ⟨'[', _, rfl, .inl (by decide)⟩
  | emptyTable ha => exact ⟨'\x7b', _, rfl, .inl (by decide)⟩
  | table h hp => exact ⟨'\x7b', _, rfl, .inl (by decide)⟩

theorem Value.avoids (h : Value limit depth cs v) (rest : List Char) :
    Avoids [' ', '\t', '#', '\n', '\r', ']'] (cs ++ rest) := by
  obtain ⟨c, r, rfl, hc⟩ := h.head
  refine avoids_cons (fun hd => ?_) _
  simp only [List.mem_cons, List.not_mem_nil, or_false] at hd
  rcases hd with rfl | rfl | rfl | rfl | rfl | rfl <;> revert hc <;> decide

theorem Value.settled (h : Value limit depth cs v) (rest : List Char) : Settled (cs ++ rest) := by
  intro c hc
  exact h.avoids rest c (List.mem_append_left [']'] hc)

theorem spells_text {t : List Char} (h : Quoted cs t) :
    Spells limit depth cs (some (String.ofList t)) := by
  intro fuel d rest hf hd hr
  have hread := readText?_of_quoted h hr.avoids
  refine ⟨.text (String.ofList t), rfl, ?_⟩
  have hquote : ∃ r, cs = '"' :: r ∨ cs = '\x27' :: r := by
    cases h with
    | basic h => exact ⟨_, .inl rfl⟩
    | literal h => exact ⟨_, .inr rfl⟩
    | basicLines hs h => exact ⟨_, .inl rfl⟩
    | basicBlock hn h => exact ⟨_, .inl rfl⟩
    | literalLines hs h => exact ⟨_, .inr rfl⟩
    | literalBlock hn h => exact ⟨_, .inr rfl⟩
  obtain ⟨r, rfl | rfl⟩ := hquote
  · obtain ⟨fuel, rfl⟩ := Nat.exists_eq_add_of_le' hf
    rw [List.length_cons, ← Nat.add_assoc, List.cons_append, readValue, ← List.cons_append, hread]
    rfl
  · obtain ⟨fuel, rfl⟩ := Nat.exists_eq_add_of_le' hf
    rw [List.length_cons, ← Nat.add_assoc, List.cons_append, readValue, ← List.cons_append, hread]
    rfl

theorem spells_scalar (h : Scalar cs) : Spells limit depth cs none := by
  intro fuel d rest hf hd hr
  have hskip := skipScalar?_of_scalar h hr
  refine ⟨.scalar, rfl, ?_⟩
  obtain ⟨c, r, rfl, hc⟩ := h.head
  have hne {x : Char} (hx : isScalarChar x = false) : c ≠ x := by
    rintro rfl
    rw [hc] at hx
    cases hx
  obtain ⟨fuel, rfl⟩ := Nat.exists_eq_add_of_le' hf
  rw [List.length_cons, ← Nat.add_assoc, readValue, hskip]
  · rfl
  all_goals
    intro r' heq
    exact hne (by decide) (List.cons.inj heq).1

theorem spells_array
    (h : ∀ fuel d rest, cs.length + 1 ≤ fuel → depth ≤ d →
      ∃ items, readItems limit fuel d (cs ++ ']' :: rest) = some (items, rest)) :
    Spells limit (depth + 1) ('[' :: (cs ++ [']'])) none := by
  intro fuel d rest hf hd hr
  rw [List.length_cons, List.length_append, List.length_singleton] at hf
  obtain ⟨fuel, rfl⟩ : ∃ k, fuel = k + 1 := ⟨fuel - 1, by omega⟩
  obtain ⟨d, rfl⟩ : ∃ k, d = k + 1 := ⟨d - 1, by omega⟩
  obtain ⟨items, hitems⟩ := h fuel d rest (by omega) (by omega)
  refine ⟨.array items, rfl, ?_⟩
  rw [List.cons_append, List.append_assoc, List.singleton_append, readValue]
  simp only [hitems, Option.map_some]

theorem spells_emptyTable (h : Space cs) :
    Spells limit (depth + 1) ('\x7b' :: (cs ++ ['\x7d'])) none := by
  intro fuel d rest hf hd hr
  obtain ⟨fuel, rfl⟩ := Nat.exists_eq_add_of_le' hf
  obtain ⟨d, rfl⟩ : ∃ k, d = k + 1 := ⟨d - 1, by omega⟩
  refine ⟨.table .inline [], rfl, ?_⟩
  rw [List.length_cons, ← Nat.add_assoc, List.cons_append, List.append_assoc,
    List.singleton_append, readValue]
  simp only
  rw [skipSpace_append h, skipSpace_cons (by decide)]
  rfl

theorem Pairs.head {paths : List (List String)} (h : Pairs limit depth cs paths)
    (rest : List Char) : ∃ c r, skipSpace (cs ++ rest) = c :: r ∧ StartsKey c := by
  cases h with
  | last hk hl ha h hb =>
    rw [List.append_assoc]
    exact hk.skipSpace_append _
  | more hk hl ha h hb hs =>
    rw [List.append_assoc]
    exact hk.skipSpace_append _

theorem spells_table {paths : List (List String)} (hp : Pairs limit depth cs paths)
    (h : ∀ fuel d rest, cs.length + 1 ≤ fuel → depth ≤ d →
      ∃ entries, readPairs limit fuel d [] (cs ++ '\x7d' :: rest) = some (entries, rest)) :
    Spells limit (depth + 1) ('\x7b' :: (cs ++ ['\x7d'])) none := by
  intro fuel d rest hf hd hr
  rw [List.length_cons, List.length_append, List.length_singleton] at hf
  obtain ⟨fuel, rfl⟩ : ∃ k, fuel = k + 1 := ⟨fuel - 1, by omega⟩
  obtain ⟨d, rfl⟩ : ∃ k, d = k + 1 := ⟨d - 1, by omega⟩
  obtain ⟨entries, hentries⟩ := h fuel d rest (by omega) (by omega)
  obtain ⟨c, r, hskip, hc⟩ := hp.head ('\x7d' :: rest)
  refine ⟨.table .inline entries, rfl, ?_⟩
  rw [List.cons_append, List.append_assoc, List.singleton_append, readValue]
  simp only
  rw [hskip]
  split
  · next heq => exact absurd (List.cons.inj heq).1 (hc.ne (by decide) (by decide))
  · rw [hentries]
    rfl

end Value

section Named

variable {t : Toml} {rest : List Char}

theorem named_of_map {α : Type} {o : Option α} {f : α → Toml × List Char}
    (hf : ∀ a, (f a).1.named = .value) (h : o.map f = some (t, rest)) : t.named = .value := by
  obtain ⟨a, -, ha⟩ := Option.map_eq_some_iff.mp h
  have hvalue := hf a
  rw [ha] at hvalue
  exact hvalue

theorem named_of_readValue {limit fuel depth : Nat} {cs : List Char}
    (h : readValue limit fuel depth cs = some (t, rest)) : t.named = .value := by
  rw [readValue.eq_def] at h
  split at h
  · cases h
  · split at h
    · split at h
      · cases h
      · exact named_of_map (fun _ => rfl) h
    · split at h
      · cases h
      · split at h
        · cases h
          rfl
        · exact named_of_map (fun _ => rfl) h
    · exact named_of_map (fun _ => rfl) h
    · exact named_of_map (fun _ => rfl) h
    · exact named_of_map (fun _ => rfl) h

end Named

section Items

variable {limit depth : Nat} {a cs b ds rest : List Char} {v : Option String}

def SpellsItems (limit depth : Nat) (cs : List Char) : Prop :=
  ∀ fuel d rest, cs.length + 1 ≤ fuel → depth ≤ d →
    ∃ items, readItems limit fuel d (cs ++ ']' :: rest) = some (items, rest)

theorem settled_close (rest : List Char) : Settled (']' :: rest) :=
  avoids_cons (by decide) rest

theorem settled_comma (rest : List Char) : Settled (',' :: rest) :=
  avoids_cons (by decide) rest

theorem spellsItems_none (ha : Filler a) : SpellsItems limit depth a := by
  intro fuel d rest hf hd
  obtain ⟨fuel, rfl⟩ := Nat.exists_eq_add_of_le' hf
  refine ⟨[], ?_⟩
  rw [← Nat.add_assoc, readItems, skipAllFiller_append ha (settled_close rest)]
  rfl

theorem readItems_step (ha : Filler a) (hv : Value limit depth cs v)
    (h : Spells limit depth cs v) {fuel d : Nat} (hf : cs.length ≤ fuel) (hd : depth ≤ d)
    (hr : Ends rest) :
    ∃ t, (∀ r, skipAllFiller rest = ']' :: r →
        readItems limit (fuel + 1) d (a ++ (cs ++ rest)) = some ([t], r)) ∧
      ∀ r items after, skipAllFiller rest = ',' :: r →
        readItems limit fuel d r = some (items, after) →
        readItems limit (fuel + 1) d (a ++ (cs ++ rest)) = some (t :: items, after) := by
  obtain ⟨t, -, hread⟩ := h fuel d rest hf hd hr
  have hfirst (r : List Char) : cs ++ rest ≠ ']' :: r := fun heq =>
    hv.avoids rest ']' (by simp) (congrArg List.head? heq)
  refine ⟨t, fun r hclose => ?_, fun r items after hcomma hitems => ?_⟩
  · rw [readItems, skipAllFiller_append ha (hv.settled rest)]
    split
    · next heq => exact absurd heq (hfirst _)
    · simp only [hread, hclose]
  · rw [readItems, skipAllFiller_append ha (hv.settled rest)]
    split
    · next heq => exact absurd heq (hfirst _)
    · simp only [hread, hcomma, hitems, Option.map_some]

theorem spellsItems_last (ha : Filler a) (hv : Value limit depth cs v)
    (h : Spells limit depth cs v) (hb : Filler b) :
    SpellsItems limit depth (a ++ (cs ++ b)) := by
  intro fuel d rest hf hd
  rw [List.length_append, List.length_append] at hf
  obtain ⟨fuel, rfl⟩ : ∃ k, fuel = k + 1 := ⟨fuel - 1, by omega⟩
  obtain ⟨t, hread, -⟩ := readItems_step ha hv h (show cs.length ≤ fuel by omega) hd
    (hb.ends (.inr rfl) rest)
  refine ⟨[t], ?_⟩
  rw [List.append_assoc, List.append_assoc]
  exact hread rest (skipAllFiller_append hb (settled_close rest))

theorem spellsItems_more (ha : Filler a) (hv : Value limit depth cs v)
    (h : Spells limit depth cs v) (hb : Filler b) (hs : SpellsItems limit depth ds) :
    SpellsItems limit depth (a ++ (cs ++ (b ++ ',' :: ds))) := by
  intro fuel d rest hf hd
  rw [List.length_append, List.length_append, List.length_append, List.length_cons] at hf
  obtain ⟨fuel, rfl⟩ : ∃ k, fuel = k + 1 := ⟨fuel - 1, by omega⟩
  obtain ⟨t, -, hread⟩ := readItems_step ha hv h (show cs.length ≤ fuel by omega) hd
    (hb.ends (.inl rfl) (ds ++ ']' :: rest))
  obtain ⟨items, hitems⟩ := hs fuel d rest (by omega) hd
  refine ⟨t :: items, ?_⟩
  rw [List.append_assoc, List.append_assoc, List.append_assoc, List.cons_append]
  exact hread _ items rest (skipAllFiller_append hb (settled_comma _)) hitems

end Items

section Pairs

variable {limit depth : Nat} {ks a cs b ds rest : List Char} {v : Option String}
  {path : List String} {paths : List (List String)}

def SpellsPairs (limit depth : Nat) (cs : List Char) (paths : List (List String)) : Prop :=
  ∀ fuel d rest entries, cs.length + 1 ≤ fuel → depth ≤ d → Apart paths →
    (∀ p ∈ paths, p ≠ [] → Room p entries) →
    ∃ es, readPairs limit fuel d entries (cs ++ '\x7d' :: rest) = some (es, rest)

theorem readPairs_step (hk : Key ks path) (hl : path.length < limit) (ha : Space a)
    (hv : Value limit depth cs v) (h : Spells limit depth cs v) {fuel d : Nat}
    (hf : cs.length ≤ fuel) (hd : depth ≤ d) (hr : Ends rest) {entries : Entries}
    (hroom : Room path entries) :
    ∃ es, (∀ q, ApartFrom path q → Room q entries → Room q es) ∧
      (∀ r, skipSpace rest = '\x7d' :: r →
        readPairs limit (fuel + 1) d entries (ks ++ '=' :: (a ++ (cs ++ rest))) = some (es, r)) ∧
      ∀ r, skipSpace rest = ',' :: r →
        readPairs limit (fuel + 1) d entries (ks ++ '=' :: (a ++ (cs ++ rest))) =
          readPairs limit fuel d es r := by
  obtain ⟨t, -, hread⟩ := h fuel d rest hf hd hr
  obtain ⟨init, key, rfl⟩ := (List.eq_nil_or_concat' path).resolve_left hk.ne_nil
  obtain ⟨es, hadd, hkeep⟩ := exists_addDotted?_of_room (named_of_readValue hread) hroom
  have hspace : skipSpace (a ++ (cs ++ rest)) = cs ++ rest := by
    rw [skipSpace_append ha, (hv.settled rest).skipSpace]
  refine ⟨es, hkeep, fun r hclose => ?_, fun r hcomma => ?_⟩
  · rw [readPairs, readKey?_append hk (.inl rfl) (by omega)]
    simp only [hspace, hread, splitKey?_concat, hadd, hclose]
  · rw [readPairs, readKey?_append hk (.inl rfl) (by omega)]
    simp only [hspace, hread, splitKey?_concat, hadd, hcomma]

theorem spellsPairs_last (hk : Key ks path) (hl : path.length < limit) (ha : Space a)
    (hv : Value limit depth cs v) (h : Spells limit depth cs v) (hb : Space b) :
    SpellsPairs limit depth (ks ++ '=' :: (a ++ (cs ++ b))) [path] := by
  intro fuel d rest entries hf hd _ hroom
  rw [List.length_append, List.length_cons, List.length_append, List.length_append] at hf
  obtain ⟨fuel, rfl⟩ : ∃ k, fuel = k + 1 := ⟨fuel - 1, by omega⟩
  have hends : Ends (b ++ '\x7d' :: rest) := (ends_cons (by decide) rest).append_space hb
  obtain ⟨es, -, hread, -⟩ := readPairs_step hk hl ha hv h (show cs.length ≤ fuel by omega) hd
    hends (hroom path List.mem_cons_self hk.ne_nil)
  refine ⟨es, ?_⟩
  rw [List.append_assoc, List.cons_append, List.append_assoc, List.append_assoc]
  refine hread rest ?_
  rw [skipSpace_append hb, skipSpace_cons (by decide)]

theorem spellsPairs_more (hk : Key ks path) (hl : path.length < limit) (ha : Space a)
    (hv : Value limit depth cs v) (h : Spells limit depth cs v) (hb : Space b)
    (hs : SpellsPairs limit depth ds paths) :
    SpellsPairs limit depth (ks ++ '=' :: (a ++ (cs ++ (b ++ ',' :: ds)))) (path :: paths) := by
  intro fuel d rest entries hf hd hapart hroom
  rw [List.length_append, List.length_cons, List.length_append, List.length_append,
    List.length_append, List.length_cons] at hf
  obtain ⟨fuel, rfl⟩ : ∃ k, fuel = k + 1 := ⟨fuel - 1, by omega⟩
  have hends : Ends (b ++ ',' :: (ds ++ '\x7d' :: rest)) :=
    (ends_cons (by decide) _).append_space hb
  obtain ⟨es, hkeep, -, hread⟩ := readPairs_step hk hl ha hv h (show cs.length ≤ fuel by omega)
    hd hends (hroom path List.mem_cons_self hk.ne_nil)
  obtain ⟨hfirst, hothers⟩ := List.pairwise_cons.mp hapart
  obtain ⟨es', hmore⟩ := hs fuel d rest es (by omega) hd hothers fun p hp hne =>
    hkeep p (hfirst p hp) (hroom p (List.mem_cons_of_mem path hp) hne)
  refine ⟨es', ?_⟩
  rw [List.append_assoc, List.cons_append, List.append_assoc, List.append_assoc,
    List.append_assoc, List.cons_append, hread (ds ++ '\x7d' :: rest)]
  · exact hmore
  · rw [skipSpace_append hb, skipSpace_cons (by decide)]

end Pairs

theorem spells_value {limit depth : Nat} {cs : List Char} {v : Option String}
    (h : Value limit depth cs v) : Spells limit depth cs v :=
  @Value.rec limit (fun depth cs v _ => Spells limit depth cs v)
    (fun depth cs _ => SpellsItems limit depth cs)
    (fun depth cs paths _ => SpellsPairs limit depth cs paths)
    spells_text spells_scalar (fun _ hs => spells_array hs) spells_emptyTable
    (fun hp hapart hs => spells_table hp fun fuel d rest hf hd =>
      hs fuel d rest [] hf hd hapart fun _ _ => room_nil)
    spellsItems_none (fun ha hv hb h => spellsItems_last ha hv h hb)
    (fun ha hv hb _ h hs => spellsItems_more ha hv h hb hs)
    (fun hk hl ha hv hb h => spellsPairs_last hk hl ha hv h hb)
    (fun hk hl ha hv hb _ h hs => spellsPairs_more hk hl ha hv h hb hs) depth cs v h

end Predication.Toml
