import Predication.Proofs.Toml.Value

namespace Predication.Toml

open Definition (textOf?)

def Draft.perform? (d : Draft) : Line Toml → Option Draft
  | .table path => d.openTable? path
  | .item path => d.openItem? path
  | .pair path value => d.addPair? path value

def performAll? (d : Draft) (lines : List (Line Toml)) : Option Draft :=
  lines.foldlM Draft.perform? d

theorem performAll?_append (d : Draft) (xs ys : List (Line Toml)) :
    performAll? d (xs ++ ys) = (performAll? d xs).bind fun d => performAll? d ys :=
  List.foldlM_append

theorem performAll?_cons (d : Draft) (line : Line Toml) (lines : List (Line Toml)) :
    performAll? d (line :: lines) = (d.perform? line).bind fun d => performAll? d lines :=
  List.foldlM_cons

theorem performAll?_single (d : Draft) (line : Line Toml) :
    performAll? d [line] = d.perform? line := by
  rw [performAll?_cons]
  cases d.perform? line <;> rfl

section LineEnd

variable {cs rest : List Char}

inductive LineEnd : List Char → List Char → Prop
  | document {b note} (hb : Space b) (hn : Comment note) : LineEnd (b ++ note) []
  | line {b note n rest} (hb : Space b) (hn : Comment note) (he : Newline n) :
      LineEnd (b ++ (note ++ (n ++ rest))) rest

theorem Newline.head {n : List Char} (h : Newline n) :
    ∃ c r, n = c :: r ∧ c ∈ ['\n', '\r'] := by
  cases h <;> exact ⟨_, _, rfl, by decide⟩

theorem LineEnd.ends (h : LineEnd cs rest) : Ends cs := by
  cases h with
  | document hb hn =>
    refine Ends.append_space hb ?_
    cases hn with
    | absent => exact ends_nil
    | note => exact ends_cons (by decide) _
  | line hb hn he =>
    refine Ends.append_space hb ?_
    cases hn with
    | absent => cases he <;> exact ends_cons (by decide) _
    | note => exact ends_cons (by decide) _

theorem LineEnd.skipLineEnd? (h : LineEnd cs rest) : skipLineEnd? cs = some rest := by
  have hplain {note : List Char} (h : ∀ c ∈ note, Visible c) : ∀ c ∈ note, isPlain c = true :=
    fun c hc => isPlain_iff.mpr (h c hc)
  cases h with
  | document hb hn =>
    rw [Toml.skipLineEnd?, skipSpace_append hb]
    cases hn with
    | absent => rfl
    | @note note hn =>
      have hnote := dropWhile_run (hplain hn) stops_nil
      rw [List.append_nil] at hnote
      rw [skipSpace_cons (by decide)]
      simp only [hnote]
      rfl
  | @line b note n rest hb hn he =>
    rw [Toml.skipLineEnd?, skipSpace_append hb]
    obtain ⟨c, r, hnewline, hc⟩ := he.head
    have hskip := skipNewline?_append he rest
    cases hn with
    | absent =>
      rw [List.nil_append, skipSpace_of_stops (he.stops_space rest)]
      cases he <;> rfl
    | @note note hn =>
      rw [List.cons_append, skipSpace_cons (by decide)]
      simp only [dropWhile_run (hplain hn) (he.stops rest), hskip]
      rw [hnewline]
      rfl

theorem LineEnd.shorter (h : LineEnd cs rest) : rest = [] ∨ rest.length < cs.length := by
  cases h with
  | document hb hn => exact .inl rfl
  | line hb hn he =>
    obtain ⟨c, r, rfl, -⟩ := he.head
    refine .inr ?_
    simp only [List.length_append, List.length_cons]
    omega

theorem LineEnd.blank (h : LineEnd cs rest) (limit : Nat) (d : Draft) :
    (skipSpace cs = [] ∧ rest = []) ∨
      (skipSpace cs ≠ [] ∧ readLine? limit d (skipSpace cs) = some (d, rest)) := by
  have hskip := h.skipLineEnd?
  have hnote {note : List Char} (hcs : skipSpace cs = '#' :: note) :
      readLine? limit d (skipSpace cs) = some (d, rest) := by
    have hsame : Toml.skipLineEnd? ('#' :: note) = some rest := by
      rw [Toml.skipLineEnd?, hcs] at hskip
      exact hskip
    rw [hcs, readLine?, hsame]
    rfl
  cases h with
  | document hb hn =>
    rw [skipSpace_append hb] at hnote ⊢
    cases hn with
    | absent => exact .inl ⟨rfl, rfl⟩
    | note =>
      rw [skipSpace_cons (by decide)] at hnote ⊢
      exact .inr ⟨List.cons_ne_nil _ _, hnote rfl⟩
  | line hb hn he =>
    rw [skipSpace_append hb] at hnote ⊢
    cases hn with
    | absent =>
      rw [List.nil_append, skipSpace_of_stops (he.stops_space _)]
      cases he <;> exact .inr ⟨List.cons_ne_nil _ _, rfl⟩
    | note =>
      rw [List.cons_append, skipSpace_cons (by decide)] at hnote ⊢
      exact .inr ⟨List.cons_ne_nil _ _, hnote rfl⟩

end LineEnd

section Reads

/-- The lines that are read as the grammar's lines are. Of each value only the text is known that it
is, and that it is a value. -/
structure Reads (full : List (Line Toml)) (lines : List (Line (Option String))) : Prop where
  text : full.map (Line.map textOf?) = lines
  value : ∀ path t, Line.pair path t ∈ full → t.named = .value

variable {full more : List (Line Toml)} {lines rest : List (Line (Option String))}

theorem reads_nil : Reads [] [] :=
  ⟨rfl, fun path t h => by cases h⟩

theorem Reads.append (h : Reads full lines) (hm : Reads more rest) :
    Reads (full ++ more) (lines ++ rest) where
  text := by rw [List.map_append, h.text, hm.text]
  value path t hmem := (List.mem_append.mp hmem).elim (h.value path t) (hm.value path t)

theorem reads_table (path : List String) : Reads [.table path] [.table path] :=
  ⟨rfl, fun p t h => by cases List.mem_singleton.mp h⟩

theorem reads_item (path : List String) : Reads [.item path] [.item path] :=
  ⟨rfl, fun p t h => by cases List.mem_singleton.mp h⟩

theorem reads_pair (path : List String) {t : Toml} (ht : t.named = .value) :
    Reads [.pair path t] [.pair path (textOf? t)] :=
  ⟨rfl, fun p u h => by cases List.mem_singleton.mp h; exact ht⟩

end Reads

section Line

variable {limit : Nat} {ks a cs tail rest : List Char} {path : List String}

theorem Key.head_ne (h : Key ks path) {c : Char} (hs : isSpace c = false)
    (hq : c ≠ '"' ∧ c ≠ '\x27') (hc : isBareKeyChar c = false) (rest r : List Char) :
    ks ++ rest ≠ c :: r := by
  obtain ⟨a, d, r', rfl, ha, hd⟩ := h.head
  intro heq
  cases a with
  | nil => exact hd.ne hq hc (List.cons.inj heq).1
  | cons x a =>
    obtain rfl := (List.cons.inj heq).1
    rw [ha.isSpace x List.mem_cons_self] at hs
    cases hs

theorem readLine?_table (hk : Key ks path) (hl : path.length < limit) (ht : LineEnd tail rest)
    (d : Draft) :
    readLine? limit d ('[' :: (ks ++ ']' :: tail)) = (d.openTable? path).map (·, rest) := by
  rw [readLine?, readKey?_append hk (.inr rfl) (by omega)]
  · simp only [ht.skipLineEnd?]
    cases d.openTable? path <;> rfl
  · intro r heq
    exact hk.head_ne (by decide) (by decide) (by decide) _ _ heq

theorem readLine?_item (hk : Key ks path) (hl : path.length < limit) (ht : LineEnd tail rest)
    (d : Draft) :
    readLine? limit d ('[' :: '[' :: (ks ++ ']' :: ']' :: tail)) =
      (d.openItem? path).map (·, rest) := by
  rw [readLine?, readKey?_append hk (.inr rfl) (by omega)]
  simp only [ht.skipLineEnd?]
  cases d.openItem? path <;> rfl

theorem readLine?_pair {v : Option String} (hk : Key ks path) (hl : path.length < limit)
    (ha : Space a) (hv : Value limit (limit - 1) cs v) (ht : LineEnd tail rest) :
    ∃ t, textOf? t = v ∧ t.named = .value ∧ ∀ d : Draft,
      readLine? limit d (skipSpace (ks ++ '=' :: (a ++ (cs ++ tail)))) =
        (d.addPair? path t).map (·, rest) := by
  obtain ⟨t, hvalue, hread⟩ := spells_value hv (2 * (cs ++ tail).length + 2) (limit - 1) tail
    (by rw [List.length_append]; omega) le_rfl ht.ends
  refine ⟨t, hvalue, named_of_readValue hread, fun d => ?_⟩
  have hkey : readKey? (limit - 1) (ks ++ '=' :: (a ++ (cs ++ tail))) =
      some (path, '=' :: (a ++ (cs ++ tail))) := readKey?_append hk (.inl rfl) (by omega)
  rw [← readKey?_skipSpace] at hkey
  obtain ⟨c, r, hskip, hc⟩ := hk.skipSpace_append ('=' :: (a ++ (cs ++ tail)))
  have hne {x : Char} (hq : x ≠ '"' ∧ x ≠ '\x27') (hx : isBareKeyChar x = false) (r' : List Char) :
      c :: r ≠ x :: r' := fun heq => hc.ne hq hx (List.cons.inj heq).1
  rw [hskip] at hkey ⊢
  rw [readLine?, hkey]
  · simp only
    rw [skipSpace_append ha, (hv.settled tail).skipSpace, hread]
    simp only [ht.skipLineEnd?, Option.bind_eq_bind, Option.bind_some]
    cases d.addPair? path t <;> rfl
  · intro r' heq
    exact hne (by decide) (by decide) _ heq
  · intro r' heq
    exact hne (by decide) (by decide) _ heq
  · intro r' heq
    exact hne (by decide) (by decide) _ heq
  · intro r' heq
    exact hne (by decide) (by decide) _ heq
  · intro r' heq
    exact hne (by decide) (by decide) _ heq

theorem readLine?_statement {line : List (Line (Option String))} (h : Statement limit cs line)
    (ht : LineEnd tail rest) :
    ∃ full : List (Line Toml), Reads full line ∧ ∀ d : Draft,
      (skipSpace (cs ++ tail) = [] ∧ full = [] ∧ rest = []) ∨
        (skipSpace (cs ++ tail) ≠ [] ∧
          readLine? limit d (skipSpace (cs ++ tail)) = (performAll? d full).map (·, rest)) := by
  cases h with
  | blank =>
    refine ⟨[], reads_nil, fun d => ?_⟩
    rcases ht.blank limit d with ⟨hnil, hrest⟩ | ⟨hne, hread⟩
    · exact .inl ⟨hnil, rfl, hrest⟩
    · exact .inr ⟨hne, hread⟩
  | table hk hl =>
    refine ⟨[.table _], reads_table _, fun d => .inr ?_⟩
    rw [List.cons_append, skipSpace_cons (by decide), List.append_assoc, List.singleton_append,
      readLine?_table hk hl ht, performAll?_single]
    exact ⟨List.cons_ne_nil _ _, rfl⟩
  | item hk hl =>
    refine ⟨[.item _], reads_item _, fun d => .inr ?_⟩
    rw [List.cons_append, skipSpace_cons (by decide), List.cons_append, List.append_assoc,
      List.cons_append, List.singleton_append, readLine?_item hk hl ht, performAll?_single]
    exact ⟨List.cons_ne_nil _ _, rfl⟩
  | pair hk hl ha hv =>
    obtain ⟨t, rfl, hvalue, hread⟩ := readLine?_pair hk hl ha hv ht
    refine ⟨[.pair _ t], reads_pair _ hvalue, fun d => .inr ?_⟩
    obtain ⟨c, r, hskip, -⟩ := hk.skipSpace_append ('=' :: (_ ++ (_ ++ tail)))
    rw [List.append_assoc, List.cons_append, List.append_assoc, hread, performAll?_single, hskip]
    exact ⟨List.cons_ne_nil _ _, rfl⟩

theorem readLines?_nil (limit fuel : Nat) (d : Draft) : readLines? limit fuel d [] = some d := by
  cases fuel <;> rfl

theorem readLines?_statement {line : List (Line (Option String))} {fuel : Nat} (ha : Space a)
    (h : Statement limit cs line) (ht : LineEnd tail rest)
    (hf : (a ++ (cs ++ tail)).length ≤ fuel) :
    ∃ full : List (Line Toml), Reads full line ∧ ∃ k, rest.length ≤ k ∧
      ∀ d : Draft, readLines? limit fuel d (a ++ (cs ++ tail)) =
        (performAll? d full).bind fun d => readLines? limit k d rest := by
  obtain ⟨full, hfull, hread⟩ := readLine?_statement h ht
  refine ⟨full, hfull, fuel - 1, ?_, fun d => ?_⟩
  · rw [List.length_append, List.length_append] at hf
    rcases ht.shorter with rfl | hless
    · exact Nat.zero_le _
    · omega
  · rw [readLines?, skipSpace_append ha]
    rcases hread d with ⟨hnil, rfl, rfl⟩ | ⟨hne, hline⟩
    · rw [hnil]
      exact (readLines?_nil limit _ d).symm
    · split
      · next heq => exact absurd heq hne
      · obtain ⟨fuel, rfl⟩ : ∃ k, fuel = k + 1 := by
          have hlen : 0 < (skipSpace (cs ++ tail)).length := List.length_pos_iff.mpr hne
          have hdrop : (skipSpace (cs ++ tail)).length ≤ (cs ++ tail).length :=
            (List.dropWhile_sublist _).length_le
          rw [List.length_append] at hf
          exact ⟨fuel - 1, by omega⟩
        simp only [hline]
        cases performAll? d full <;> rfl

end Line

section Document

variable {limit : Nat} {cs : List Char} {lines : List (Line (Option String))}

theorem readLines?_lines (h : Lines limit cs lines) {fuel : Nat} (hf : cs.length ≤ fuel) :
    ∃ full : List (Line Toml), Reads full lines ∧
      ∀ d, readLines? limit fuel d cs = performAll? d full := by
  induction h generalizing fuel with
  | last ha h hb hn =>
    obtain ⟨full, hfull, k, -, hread⟩ := readLines?_statement ha h (.document hb hn) hf
    refine ⟨full, hfull, fun d => ?_⟩
    rw [hread]
    cases performAll? d full with
    | none => rfl
    | some d => exact readLines?_nil limit k d
  | more ha h hb hn he hs ih =>
    obtain ⟨full, hfull, k, hk, hread⟩ := readLines?_statement ha h (.line hb hn he) hf
    obtain ⟨more, hmany, hmore⟩ := ih hk
    refine ⟨full ++ more, hfull.append hmany, fun d => ?_⟩
    rw [hread, performAll?_append]
    simp only [hmore]

theorem Space.avoids (h : Space cs) : Avoids ['\ufeff'] cs := by
  cases cs with
  | nil => exact avoids_nil _
  | cons c cs =>
    refine avoids_cons ?_ cs
    rcases h c List.mem_cons_self with rfl | rfl <;> decide

theorem Comment.avoids (h : Comment cs) : Avoids ['\ufeff'] cs := by
  cases h with
  | absent => exact avoids_nil _
  | note h => exact avoids_cons (by decide) _

theorem Newline.avoids (h : Newline cs) : Avoids ['\ufeff'] cs := by
  cases h <;> exact avoids_cons (by decide) _

theorem Statement.avoids {line : List (Line (Option String))} (h : Statement limit cs line) :
    Avoids ['\ufeff'] cs := by
  cases h with
  | blank => exact avoids_nil _
  | table hk hl => exact avoids_cons (by decide) _
  | item hk hl => exact avoids_cons (by decide) _
  | pair hk hl ha hv =>
    intro c hc heq
    obtain rfl := List.mem_singleton.mp hc
    obtain ⟨r, heq⟩ := List.head?_eq_some_iff.mp heq
    exact hk.head_ne (by decide) (by decide) (by decide) _ r heq

theorem Lines.avoids (h : Lines limit cs lines) : Avoids ['\ufeff'] cs := by
  induction h with
  | last ha h hb hn =>
    exact avoids_append ha.avoids (avoids_append h.avoids (avoids_append hb.avoids hn.avoids))
  | more ha h hb hn he hs ih =>
    exact avoids_append ha.avoids (avoids_append h.avoids (avoids_append hb.avoids
      (avoids_append hn.avoids (avoids_append he.avoids ih))))

theorem skipByteOrderMark_lines (h : Lines limit cs lines) : skipByteOrderMark cs = cs := by
  rw [skipByteOrderMark.eq_def]
  split
  · exact absurd rfl (h.avoids '\ufeff' (by simp))
  · rfl

theorem Statement.path_ne_nil {line : List (Line (Option String))} (h : Statement limit cs line) :
    ∀ l ∈ line, l.path [] ≠ [] := by
  cases h with
  | blank => exact fun l hl => by cases hl
  | table hk hl => exact List.forall_mem_singleton.mpr hk.ne_nil
  | item hk hl => exact List.forall_mem_singleton.mpr hk.ne_nil
  | pair hk hl ha hv => exact List.forall_mem_singleton.mpr hk.ne_nil

theorem Lines.path_ne_nil (h : Lines limit cs lines) : ∀ l ∈ lines, l.path [] ≠ [] := by
  induction h with
  | last ha h hb hn => exact h.path_ne_nil
  | more ha h hb hn he hs ih => exact List.forall_mem_append.mpr ⟨h.path_ne_nil, ih⟩

theorem Document.path_ne_nil {text : String} (h : Document limit text lines) :
    ∀ l ∈ lines, l.path [] ≠ [] := by
  cases h with
  | bare h => exact h.path_ne_nil
  | marked hs h => exact h.path_ne_nil

theorem read?_document {text : String} (h : Document limit text lines) :
    ∃ full : List (Line Toml), Reads full lines ∧
      read? text limit = (performAll? {} full).map Draft.root := by
  cases h with
  | bare h =>
    obtain ⟨full, hfull, hread⟩ := readLines?_lines h le_rfl
    refine ⟨full, hfull, ?_⟩
    rw [read?, skipByteOrderMark_lines h, hread]
  | marked hs h =>
    obtain ⟨full, hfull, hread⟩ := readLines?_lines h (Nat.le_succ _)
    refine ⟨full, hfull, ?_⟩
    rw [read?, hs, List.length_cons, skipByteOrderMark, hread]

end Document

end Predication.Toml
