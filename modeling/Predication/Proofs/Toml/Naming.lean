import Predication.Proofs.Toml.Rules
import Predication.Proofs.Toml.Table
import Predication.Toml.Reader

namespace Predication.Toml

section Add

variable {s s' : Names} {name : Named} {way : TableKind} {part : String} {p q : List String}

theorem Names.add_congr (h : s q = s' q) : s.add p name way q = s'.add p name way q := by
  rw [add, add, h]

theorem Names.add_nil (q : List String) :
    s.add [] name way q = if q = [] then some name else s q := by
  rw [add]
  by_cases hq : q = []
  · rw [if_pos hq, if_pos hq]
  · rw [if_neg hq, if_neg hq, if_neg fun h => hq (List.prefix_nil.mp h.1)]

theorem Names.add_at_nil (hp : p ≠ []) :
    s.add p name way [] = some ((s []).getD (.table way)) := by
  rw [add, if_neg hp.symm]
  cases hs : s [] with
  | none => rw [if_pos ⟨List.nil_prefix, rfl⟩, Option.getD_none]
  | some n => rw [if_neg fun h => Option.some_ne_none n h.2, Option.getD_some]

theorem Names.add_cons (part : String) (p q : List String) :
    s.add (part :: p) name way (part :: q) = add (fun q => s (part :: q)) p name way q := by
  simp only [add, List.cons.injEq, true_and, List.cons_prefix_cons]

theorem Names.add_cons_of_ne {k : String} (hk : k ≠ part) :
    s.add (part :: p) name way (k :: q) = s (k :: q) := by
  simp only [add, List.cons.injEq, hk, false_and, if_false, List.cons_prefix_cons]

theorem Names.close_append (r p q : List String) :
    s.close (r ++ p) (r ++ q) = close (fun q => s (r ++ q)) p q := by
  simp only [close, List.prefix_append_right_inj, List.append_cancel_left_eq, ne_eq]

end Add

section Naming

def named : Toml → Named
  | .table .inline _ => .value
  | .table kind _ => .table kind
  | .tables (_ :: _) => .tables
  | _ => .value

def inner : Toml → Entries
  | .table .inline _ => []
  | .table _ es => es
  | .tables items => items.getLast?.getD []
  | _ => []

def refill : Toml → Entries → Toml
  | .table kind _, es => .table kind es
  | .tables items, es => .tables (items.dropLast ++ [es])
  | t, _ => t

def names : Toml → List String → Option Named
  | t, [] => some t.named
  | t, part :: parts => (t.inner.get? part).bind fun t => t.names parts

def Entries.names (es : Entries) : Names := fun path => (Toml.table .header es).names path

variable {t : Toml} {es : Entries} {part : String} {path : List String}

theorem named_tables_concat (items : List Entries) (last : Entries) :
    (Toml.tables (items ++ [last])).named = .tables := by
  cases items <;> rfl

theorem named_refill (h : t.named ≠ .value) (es : Entries) : (t.refill es).named = t.named := by
  cases t with
  | text t => rfl
  | scalar => rfl
  | array items => rfl
  | table kind old => cases kind <;> rfl
  | tables items =>
    cases items with
    | nil => exact absurd rfl h
    | cons item items => exact named_tables_concat _ es

theorem inner_refill (h : t.named ≠ .value) (es : Entries) : (t.refill es).inner = es := by
  cases t with
  | text t => exact absurd rfl h
  | scalar => exact absurd rfl h
  | array items => exact absurd rfl h
  | table kind old => cases kind <;> first | rfl | exact absurd rfl h
  | tables items => rw [refill, inner, List.getLast?_concat, Option.getD_some]

theorem inner_of_value (h : t.named = .value) : t.inner = [] := by
  cases t with
  | text t => rfl
  | scalar => rfl
  | array items => rfl
  | table kind old => cases kind <;> first | rfl | cases h
  | tables items =>
    cases items with
    | nil => rfl
    | cons item items => cases h

theorem exists_eq_implied (h : t.named = .table .implied) : ∃ es, t = .table .implied es := by
  cases t with
  | text t => cases h
  | scalar => cases h
  | array items => cases h
  | table kind es => cases kind <;> first | exact ⟨es, rfl⟩ | cases h
  | tables items => cases items <;> cases h

theorem exists_eq_tables (h : t.named = .tables) : ∃ items, t = .tables items := by
  cases t with
  | text t => cases h
  | scalar => cases h
  | array items => cases h
  | table kind es => cases kind <;> cases h
  | tables items => exact ⟨items, rfl⟩

theorem names_nil (t : Toml) : t.names [] = some t.named := by
  rw [names]

theorem names_of_ne_nil (t : Toml) (h : path ≠ []) : t.names path = t.inner.names path := by
  cases path with
  | nil => exact absurd rfl h
  | cons part parts => rw [Entries.names, names, names]; rfl

theorem Entries.names_nil (es : Entries) : es.names [] = some (.table .header) := by
  rw [names, Toml.names]; rfl

theorem Entries.names_cons (es : Entries) (part : String) (path : List String) :
    es.names (part :: path) = (es.get? part).bind fun t => t.names path := by
  rw [names, Toml.names]; rfl

theorem Entries.names_empty (h : path ≠ []) : names [] path = none := by
  obtain ⟨part, parts, rfl⟩ := List.exists_cons_of_ne_nil h
  rw [names_cons, get?_nil, Option.bind_none]

theorem Entries.names_single (es : Entries) (part : String) :
    es.names [part] = (es.get? part).map Toml.named := by
  rw [names_cons]
  cases es.get? part with
  | none => rfl
  | some t => exact Toml.names_nil t

end Naming

section Change

variable {es : Entries} {s : Names} {name : Named} {way : TableKind} {part key : String}
  {path sub : List String} {t value : Toml}

theorem Entries.put_of_new (h : es.get? key = none) (t : Toml) :
    es.put key t = es ++ [(key, t)] := by
  induction es with
  | nil => rfl
  | cons e es ih =>
    rw [get?_cons] at h
    have he : ¬ key = e.1 := fun he => by rw [if_pos he] at h; cases h
    rw [if_neg he] at h
    rw [put, if_neg (Ne.symm he), ih h, List.cons_append]

theorem Entries.names_put (es : Entries) (part : String) (t : Toml) (k : String)
    (q : List String) :
    (es.put part t).names (k :: q) = if k = part then t.names q else es.names (k :: q) := by
  rw [names_cons, get?_put, names_cons]
  by_cases hk : k = part
  · rw [if_pos hk, if_pos hk, Option.bind_some]
  · rw [if_neg hk, if_neg hk]

def Entries.next (way : TableKind) (part : String) (es : Entries) : Toml :=
  (es.get? part).getD (.table way [])

theorem Entries.named_next (way : TableKind) (part : String) (es : Entries) (hw : way ≠ .inline) :
    (es.next way part).named = (es.names [part]).getD (.table way) := by
  rw [next, names_single]
  cases es.get? part with
  | none => cases way <;> first | rfl | exact absurd rfl hw
  | some t => rfl

theorem Entries.names_next (way : TableKind) (part : String) (es : Entries)
    (hq : path ≠ []) : (es.next way part).inner.names path = es.names (part :: path) := by
  rw [next, names_cons]
  cases es.get? part with
  | none =>
    have hnil : (Toml.table way []).inner = [] := by
      cases way <;> rfl
    rw [Option.getD_none, hnil, names_empty hq, Option.bind_none]
  | some t => rw [Option.getD_some, Option.bind_some, names_of_ne_nil t hq]

theorem Entries.names_next_ne {n : Option Named} (hn : some (.table .header) ≠ n)
    (h : es.names (part :: path) ≠ n) : (es.next way part).inner.names path ≠ n := by
  by_cases hnil : path = []
  · rw [hnil, names_nil]
    exact hn
  · rw [names_next way part es hnil]
    exact h

theorem Entries.next_of_named {way' : TableKind} (h : es.names [part] ≠ none) :
    es.next way part = es.next way' part := by
  rw [names_single] at h
  rw [next, next]
  cases hget : es.get? part with
  | none => exact absurd (congrArg (Option.map Toml.named) hget) h
  | some t => rfl

theorem under?_cons {f : Entries → Option Entries} (h : es.names [part] ≠ some .value) :
    under? f (part :: path) es =
      (under? f path (es.next .implied part).inner).map fun new =>
        es.put part ((es.next .implied part).refill new) := by
  rw [Entries.names_single] at h
  rw [under?, Entries.next]
  cases hget : es.get? part with
  | none =>
    simp only [Entries.put_of_new hget]
    rfl
  | some t =>
    rw [hget] at h
    cases t with
    | text t => exact absurd rfl h
    | scalar => exact absurd rfl h
    | array items => exact absurd rfl h
    | table kind old => cases kind <;> first | rfl | exact absurd rfl h
    | tables items =>
      rcases List.eq_nil_or_concat' items with rfl | ⟨init, last, rfl⟩
      · exact absurd rfl h
      · simp only [changeLast?_concat, Option.getD_some, inner, List.getLast?_concat, refill,
          List.dropLast_concat, Option.map_map]
        rfl

theorem addDotted?_cons {holds : Bool}
    (h : es.names [part] = none ∨ es.names [part] = some (.table .dotted) ∨
      es.names [part] = some (.table .implied) ∨ es.names [part] = some .tables) :
    addDotted? holds key value (part :: path) es =
      (addDotted? (decide ((es.next .dotted part).named = .table .dotted)) key value path
        (es.next .dotted part).inner).map fun new =>
          es.put part ((es.next .dotted part).refill new) := by
  rw [Entries.names_single] at h
  rw [addDotted?, Entries.next]
  cases hget : es.get? part with
  | none =>
    simp only [Entries.put_of_new hget]
    rfl
  | some t =>
    rw [hget, Option.map_some] at h
    cases t with
    | text t => simp [named] at h
    | scalar => simp [named] at h
    | array items => simp [named] at h
    | table kind old => cases kind <;> first | rfl | simp [named] at h
    | tables items =>
      rcases List.eq_nil_or_concat' items with rfl | ⟨init, last, rfl⟩
      · simp [named] at h
      · simp only [changeLast?_concat, Option.getD_some, named_tables_concat, inner,
          List.getLast?_concat, refill, List.dropLast_concat, Option.map_map]
        rfl

theorem names_put_refill {new : Entries} (hpath : path ≠ []) (hw : way ≠ .inline)
    (hnext : es.names [part] ≠ some .value)
    (hs : ∀ q, q ≠ [] → ¬ part :: path <+: q → s q = es.names q)
    (hnew : ∀ q, q ≠ [] → new.names q = Names.add (fun q => s (part :: q)) path name way q) :
    ∀ q, q ≠ [] →
      (es.put part ((es.next way part).refill new)).names q = s.add (part :: path) name way q := by
  intro q hq
  obtain ⟨k, q, rfl⟩ := List.exists_cons_of_ne_nil hq
  have hnamed := es.named_next way part hw
  have hvalue : (es.next way part).named ≠ .value := by
    rw [hnamed]
    cases hn : es.names [part] with
    | none => exact Named.noConfusion
    | some n => exact fun h => hnext (hn.trans (congrArg some h))
  rw [Entries.names_put]
  by_cases hk : k = part
  · subst hk
    rw [if_pos rfl, Names.add_cons]
    cases q with
    | nil =>
      have hsame : s [k] = es.names [k] := by
        refine hs _ hq fun h => hpath ?_
        exact List.prefix_nil.mp (List.cons_prefix_cons.mp h).2
      rw [names_nil, named_refill hvalue, hnamed, Names.add_at_nil hpath, hsame]
    | cons j q =>
      rw [names_of_ne_nil _ (List.cons_ne_nil j q), inner_refill hvalue,
        hnew _ (List.cons_ne_nil j q)]
  · rw [if_neg hk, Names.add_cons_of_ne hk]
    exact (hs _ hq fun h => hk (List.cons_prefix_cons.mp h).1.symm).symm

end Change

section Operation

variable {es : Entries} {s : Names} {name : Named} {way : TableKind} {key : String}
  {path sub : List String} {value : Toml}

theorem names_put_single (hs : ∀ k q, k ≠ key → s (k :: q) = es.names (k :: q))
    (hnamed : value.named = name) (hinner : ∀ q, q ≠ [] → value.inner.names q = s (key :: q)) :
    ∀ q, q ≠ [] → (es.put key value).names q = s.add [key] name way q := by
  intro q hq
  obtain ⟨k, q, rfl⟩ := List.exists_cons_of_ne_nil hq
  rw [Entries.names_put]
  by_cases hk : k = key
  · subst hk
    rw [if_pos rfl, Names.add_cons, Names.add_nil]
    by_cases hnil : q = []
    · rw [if_pos hnil, hnil, names_nil, hnamed]
    · rw [if_neg hnil, names_of_ne_nil _ hnil, hinner q hnil]
  · rw [if_neg hk, Names.add_cons_of_ne hk, hs k q hk]

/-- What an operation on the table at the end of a path names is named past the path from the root.
All that `s` says of `es` is used off the way to the new name. -/
theorem exists_under? {f : Entries → Option Entries} (hsub : sub ≠ []) (hw : way ≠ .inline)
    (hlead : ∀ q, q <+: path → es.names q ≠ some .value)
    (hway : way = .implied ∨ ∀ q, q <+: path → es.names q ≠ none)
    (hs : ∀ q, q ≠ [] → ¬ path ++ sub <+: q → s q = es.names q)
    (hf : ∀ old : Entries, (∀ q, q ≠ [] → old.names q = es.names (path ++ q)) →
      ∃ new, f old = some new ∧
        ∀ q, q ≠ [] → new.names q = Names.add (fun q => s (path ++ q)) sub name way q) :
    ∃ es', under? f path es = some es' ∧
      ∀ q, q ≠ [] → es'.names q = s.add (path ++ sub) name way q := by
  induction path generalizing es s with
  | nil => exact hf es fun q hq => rfl
  | cons part path ih =>
    have hpart : [part] <+: part :: path := ⟨path, rfl⟩
    have hnext : es.next .implied part = es.next way part := by
      rcases hway with rfl | hnamed
      · rfl
      · exact Entries.next_of_named (hnamed _ hpart)
    have hbelow {q : List String} (hq : q ≠ []) :
        (es.next way part).inner.names q = es.names (part :: q) := es.names_next way part hq
    have hlead' : ∀ q, q <+: path → (es.next way part).inner.names q ≠ some .value := fun q hq =>
      Entries.names_next_ne (by simp) (hlead _ (List.cons_prefix_cons.mpr ⟨rfl, hq⟩))
    have hway' : way = .implied ∨ ∀ q, q <+: path → (es.next way part).inner.names q ≠ none :=
      hway.imp_right fun h q hq =>
        Entries.names_next_ne (by simp) (h _ (List.cons_prefix_cons.mpr ⟨rfl, hq⟩))
    obtain ⟨new, hnew, hnames⟩ := ih hlead' hway'
      (fun q hq hpast => (hs _ (List.cons_ne_nil part q) fun h =>
        hpast (List.cons_prefix_cons.mp h).2).trans (hbelow hq).symm)
      (fun old hold => hf old fun q hq =>
        (hold q hq).trans (hbelow (List.append_ne_nil_of_right_ne_nil path hq)))
    refine ⟨es.put part ((es.next way part).refill new), ?_, ?_⟩
    · rw [under?_cons (hlead _ hpart), hnext, hnew, Option.map_some]
    · exact names_put_refill (List.append_ne_nil_of_right_ne_nil path hsub) hw (hlead _ hpart) hs
        hnames

theorem Entries.get?_eq_none_of_names (h : es.names [key] = none) : es.get? key = none := by
  rw [names_single, Option.map_eq_none_iff] at h
  exact h

theorem exists_addDotted? {holds : Bool} (hholds : holds = true ∨ path ≠ [])
    (hvalue : value.named = .value) (hnew : es.names (path ++ [key]) = none)
    (hreach : es.names.Reaches [] path) :
    ∃ es', addDotted? holds key value path es = some es' ∧
      ∀ q, q ≠ [] → es'.names q = es.names.add (path ++ [key]) .value .dotted q := by
  induction path generalizing es holds with
  | nil =>
    have hget := Entries.get?_eq_none_of_names hnew
    obtain rfl := hholds.resolve_right fun h => h rfl
    refine ⟨es ++ [(key, value)], ?_, ?_⟩
    · rw [addDotted?, if_pos rfl, Entries.add?, hget]
    · rw [← Entries.put_of_new hget]
      refine names_put_single (fun k q _ => rfl) hvalue fun q hq => ?_
      rw [inner_of_value hvalue, Entries.names_empty hq, Entries.names_cons, hget, Option.bind_none]
  | cons part path ih =>
    have hpart := hreach [part] ⟨path, rfl⟩ (List.cons_ne_nil part [])
    rw [List.nil_append] at hpart
    have hbelow {q : List String} (hq : q ≠ []) :
        (es.next .dotted part).inner.names q = es.names (part :: q) := es.names_next .dotted part hq
    have hnamed := es.named_next .dotted part TableKind.noConfusion
    have hholds' : decide ((es.next .dotted part).named = .table .dotted) = true ∨ path ≠ [] := by
      rw [decide_eq_true_iff, hnamed]
      rcases hpart with hnone | hdotted | ⟨hne, -⟩
      · rw [hnone, Option.getD_none]
        exact .inl rfl
      · rw [hdotted, Option.getD_some]
        exact .inl rfl
      · exact .inr fun h => hne (h ▸ rfl)
    have hreach' : (es.next .dotted part).inner.names.Reaches [] path := by
      intro q hq hnil
      rw [List.nil_append, hbelow hnil]
      have h := hreach (part :: q) (List.cons_prefix_cons.mpr ⟨rfl, hq⟩) (List.cons_ne_nil part q)
      exact h.imp_right (Or.imp_right (And.imp_left fun hne heq => hne (heq ▸ rfl)))
    obtain ⟨new, hadd, hnames⟩ := ih hholds' ((hbelow (by simp)).trans hnew) hreach'
    refine ⟨es.put part ((es.next .dotted part).refill new), ?_, ?_⟩
    · rw [addDotted?_cons (hpart.imp_right (Or.imp_right And.right)), hadd, Option.map_some]
    · refine names_put_refill (List.append_ne_nil_of_right_ne_nil path (List.cons_ne_nil key []))
        TableKind.noConfusion ?_ (fun q hq _ => rfl) fun q hq => ?_
      · rcases hpart with h | h | ⟨-, h | h⟩ <;> rw [h] <;> simp
      · rw [hnames q hq]
        exact Names.add_congr (hbelow hq)

def Room (path : List String) (es : Entries) : Prop :=
  es.names path = none ∧ es.names.Reaches [] path.dropLast

theorem room_nil (h : path ≠ []) : Room path [] :=
  ⟨Entries.names_empty h, fun _ _ hq => .inl (Entries.names_empty hq)⟩

theorem exists_addDotted?_of_room (hvalue : value.named = .value) (h : Room (path ++ [key]) es) :
    ∃ es', addDotted? true key value path es = some es' ∧
      ∀ q, ApartFrom (path ++ [key]) q → Room q es → Room q es' := by
  obtain ⟨hnew, hreach⟩ := h
  rw [List.dropLast_concat] at hreach
  obtain ⟨es', hadd, hnames⟩ := exists_addDotted? (.inl rfl) hvalue hnew hreach
  refine ⟨es', hadd, fun q hq hroom => ⟨?_, fun r hr hnil => ?_⟩⟩
  · have hnil : q ≠ [] := fun h => hq.2 (h ▸ List.nil_prefix)
    have hne : q ≠ path ++ [key] := by
      rintro rfl
      exact hq.1 List.prefix_rfl
    rw [hnames q hnil, Names.add, if_neg hne, if_neg fun h => hq.2 h.1]
    exact hroom.1
  · have hne : r ≠ path ++ [key] := by
      rintro rfl
      exact hq.1 (hr.trans (List.dropLast_prefix q))
    rw [List.nil_append, hnames r hnil, Names.add, if_neg hne]
    split
    · exact .inr (.inl rfl)
    · exact hroom.2 r hr hnil

theorem exists_openTable? (h : es.names [key] = none ∨ es.names [key] = some (.table .implied)) :
    ∃ es', openTable? key es = some es' ∧
      ∀ q, q ≠ [] → es'.names q = es.names.add [key] (.table .header) .implied q := by
  rw [openTable?]
  rcases h with hnone | himplied
  · have hget := Entries.get?_eq_none_of_names hnone
    rw [hget]
    refine ⟨_, rfl, ?_⟩
    rw [← Entries.put_of_new hget]
    refine names_put_single (fun k q _ => rfl) rfl fun q hq => ?_
    rw [Entries.names_cons, hget, Option.bind_none]
    exact Entries.names_empty hq
  · rw [Entries.names_single] at himplied
    obtain ⟨t, hget, ht⟩ := Option.map_eq_some_iff.mp himplied
    obtain ⟨old, rfl⟩ := exists_eq_implied ht
    rw [hget]
    refine ⟨_, rfl, names_put_single (fun k q _ => rfl) rfl fun q hq => ?_⟩
    rw [Entries.names_cons, hget, Option.bind_some, names_of_ne_nil _ hq]
    rfl

theorem exists_openItem? (h : es.names [key] = none ∨ es.names [key] = some .tables) :
    ∃ es', openItem? key es = some es' ∧
      ∀ q, q ≠ [] → es'.names q = (es.names.close [key]).add [key] .tables .implied q := by
  have hother (k : String) (q : List String) (hk : k ≠ key) :
      es.names.close [key] (k :: q) = es.names (k :: q) := by
    rw [Names.close, if_neg fun h => hk (List.cons_prefix_cons.mp h.1).1.symm]
  have hpast (q : List String) (hq : q ≠ []) : es.names.close [key] (key :: q) = none := by
    rw [Names.close, if_pos ⟨List.cons_prefix_cons.mpr ⟨rfl, List.nil_prefix⟩, by simp [hq]⟩]
  rw [openItem?]
  rcases h with hnone | htables
  · have hget := Entries.get?_eq_none_of_names hnone
    rw [hget]
    refine ⟨_, rfl, ?_⟩
    rw [← Entries.put_of_new hget]
    refine names_put_single hother rfl fun q hq => ?_
    rw [hpast q hq]
    exact Entries.names_empty hq
  · rw [Entries.names_single] at htables
    obtain ⟨t, hget, ht⟩ := Option.map_eq_some_iff.mp htables
    obtain ⟨items, rfl⟩ := exists_eq_tables ht
    rw [hget]
    refine ⟨_, rfl, names_put_single hother (named_tables_concat items []) fun q hq => ?_⟩
    rw [hpast q hq, inner, List.getLast?_concat, Option.getD_some]
    exact Entries.names_empty hq

end Operation

end Predication.Toml
