import Predication.Proofs.Toml.Document

namespace Predication.Toml

open Definition (textOf?)

section Map

variable {α β : Type} (f : α → β)

theorem valid_map (s : Names) (header : List String) (lines : List (Line α)) :
    Valid s header (lines.map (Line.map f)) ↔ Valid s header lines := by
  induction lines generalizing s header with
  | nil => exact Iff.rfl
  | cons line lines ih =>
    rw [List.map_cons, Valid, Valid, ih]
    cases line <;> exact Iff.rfl

end Map

section Perform

variable {d : Draft} {s : Names} {header path : List String}

def Names.Open (s : Names) (header : List String) : Prop :=
  ∀ q, q <+: header → s q ≠ none ∧ s q ≠ some .value

theorem open_root : Names.Open .root [] := by
  intro q hq
  rw [List.prefix_nil.mp hq]
  simp [Names.root]

theorem Names.open_add {name : Named} (hlead : s.Leads path) (hname : name ≠ .value) :
    (s.add path name .implied).Open path := by
  intro q hq
  rw [add]
  by_cases heq : q = path
  · rw [if_pos heq]
    exact ⟨Option.some_ne_none name, fun h => hname (Option.some.inj h)⟩
  · rw [if_neg heq]
    split
    · simp
    · next h => exact ⟨fun hnone => h ⟨hq, hnone⟩, hlead q hq heq⟩

theorem Names.close_at_nil (hpath : path ≠ []) : s.close path [] = s [] := by
  rw [close, if_neg fun h => hpath (List.prefix_nil.mp h.1)]

theorem Names.leads_close (hlead : s.Leads path) : (s.close path).Leads path := by
  intro q hq hne
  rw [close, if_neg fun h => hne (hq.eq_of_length_le h.1.length_le)]
  exact hlead q hq hne

theorem Line.Allowed.opens {α : Type} {line : Line α} (h : line.Allowed s header)
    (hopen : s.Open header) (hpath : line.path [] ≠ []) :
    (line.names s header).Open (line.header header) := by
  cases line with
  | table path => exact Names.open_add h.1 Named.noConfusion
  | item path => exact Names.open_add (Names.leads_close h.1) Named.noConfusion
  | pair path value =>
    rw [Line.header]
    intro q hq
    have hne : q ≠ header ++ path := by
      rintro rfl
      exact hpath (List.append_right_eq_self.mp (hq.eq_of_length_le (by simp)))
    rw [names, Names.add, if_neg hne, if_neg fun hnone => (hopen q hq).1 hnone.2]
    exact hopen q hq

theorem names_eq_add {es es' : Entries} {s : Names} {name : Named} {way : TableKind}
    (hpath : path ≠ []) (hroot : s [] = es.names [])
    (h : ∀ q, q ≠ [] → es'.names q = s.add path name way q) : es'.names = s.add path name way := by
  funext q
  by_cases hq : q = []
  · rw [hq, Names.add_at_nil hpath, hroot, Entries.names_nil, Entries.names_nil, Option.getD_some]
  · exact h q hq

theorem Names.Leads.init {key : String} (h : s.Leads (path ++ [key])) :
    ∀ q, q <+: path → s q ≠ some .value := by
  intro q hq
  refine h q (hq.trans (List.prefix_append path [key])) ?_
  rintro rfl
  simpa using hq.length_le

variable {key : String}

theorem Draft.exists_openTable? (hlead : d.root.names.Leads (path ++ [key]))
    (h : d.root.names (path ++ [key]) = none ∨
      d.root.names (path ++ [key]) = some (.table .implied)) :
    ∃ root, d.openTable? (path ++ [key]) = some ⟨root, path ++ [key]⟩ ∧
      root.names = d.root.names.add (path ++ [key]) (.table .header) .implied := by
  have hkey : ∀ old : Entries, (∀ q, q ≠ [] → old.names q = d.root.names (path ++ q)) →
      ∃ new, Toml.openTable? key old = some new ∧ ∀ q, q ≠ [] → new.names q =
        Names.add (fun q => d.root.names (path ++ q)) [key] (.table .header) .implied q := by
    intro old hold
    rw [← hold _ (List.cons_ne_nil key [])] at h
    obtain ⟨new, hnew, hnames⟩ := Toml.exists_openTable? h
    exact ⟨new, hnew, fun q hq => (hnames q hq).trans (Names.add_congr (hold q hq))⟩
  obtain ⟨root, hroot, hnames⟩ := exists_under? (List.cons_ne_nil key []) TableKind.noConfusion
    hlead.init (.inl rfl) (fun q _ _ => rfl) hkey
  refine ⟨root, ?_, names_eq_add (by simp) rfl hnames⟩
  rw [openTable?, splitKey?_concat, Option.bind_some]
  simp only [hroot, Option.map_some]

theorem Draft.exists_openItem? (hlead : d.root.names.Leads (path ++ [key]))
    (h : d.root.names (path ++ [key]) = none ∨ d.root.names (path ++ [key]) = some .tables) :
    ∃ root, d.openItem? (path ++ [key]) = some ⟨root, path ++ [key]⟩ ∧
      root.names = (d.root.names.close (path ++ [key])).add (path ++ [key]) .tables .implied := by
  have hkey : ∀ old : Entries, (∀ q, q ≠ [] → old.names q = d.root.names (path ++ q)) →
      ∃ new, Toml.openItem? key old = some new ∧ ∀ q, q ≠ [] → new.names q =
        Names.add (fun q => d.root.names.close (path ++ [key]) (path ++ q)) [key] .tables
          .implied q := by
    intro old hold
    rw [← hold _ (List.cons_ne_nil key [])] at h
    obtain ⟨new, hnew, hnames⟩ := Toml.exists_openItem? h
    refine ⟨new, hnew, fun q hq => (hnames q hq).trans (Names.add_congr ?_)⟩
    rw [Names.close_append, Names.close, Names.close, hold q hq]
  have hoff (q : List String) (_ : q ≠ []) (hpast : ¬ path ++ [key] <+: q) :
      d.root.names.close (path ++ [key]) q = d.root.names q := by
    rw [Names.close, if_neg fun h => hpast h.1]
  obtain ⟨root, hroot, hnames⟩ := exists_under? (List.cons_ne_nil key []) TableKind.noConfusion
    hlead.init (.inl rfl) hoff hkey
  refine ⟨root, ?_, names_eq_add (by simp) (Names.close_at_nil (by simp)) hnames⟩
  rw [openItem?, splitKey?_concat, Option.bind_some]
  simp only [hroot, Option.map_some]

theorem Draft.exists_addPair? {value : Toml} (hopen : d.root.names.Open d.header)
    (hvalue : value.named = .value) (hnew : d.root.names (d.header ++ (path ++ [key])) = none)
    (hreach : d.root.names.Reaches d.header path) :
    ∃ root, d.addPair? (path ++ [key]) value = some ⟨root, d.header⟩ ∧
      root.names = d.root.names.add (d.header ++ (path ++ [key])) .value .dotted := by
  have hne : path ++ [key] ≠ [] := by simp
  have hkey : ∀ old : Entries, (∀ q, q ≠ [] → old.names q = d.root.names (d.header ++ q)) →
      ∃ new, addDotted? true key value path old = some new ∧ ∀ q, q ≠ [] → new.names q =
        Names.add (fun q => d.root.names (d.header ++ q)) (path ++ [key]) .value .dotted q := by
    intro old hold
    have hreach' : old.names.Reaches [] path := by
      intro q hq hnil
      rw [List.nil_append, hold q hnil]
      exact hreach q hq hnil
    obtain ⟨new, hadd, hnames⟩ := exists_addDotted? (.inl rfl) hvalue ((hold _ hne).trans hnew)
      hreach'
    exact ⟨new, hadd, fun q hq => (hnames q hq).trans (Names.add_congr (hold q hq))⟩
  obtain ⟨root, hroot, hnames⟩ := exists_under? hne TableKind.noConfusion
    (fun q hq => (hopen q hq).2) (.inr fun q hq => (hopen q hq).1) (fun q _ _ => rfl) hkey
  refine ⟨root, ?_, names_eq_add (List.append_ne_nil_of_right_ne_nil _ hne) rfl hnames⟩
  rw [addPair?, splitKey?_concat, Option.bind_some]
  simp only [hroot, Option.map_some]

theorem Draft.exists_perform? {line : Line Toml} (h : line.Allowed d.root.names d.header)
    (hopen : d.root.names.Open d.header) (hpath : line.path [] ≠ [])
    (hvalue : ∀ path t, line = .pair path t → t.named = .value) :
    ∃ root, d.perform? line = some ⟨root, line.header d.header⟩ ∧
      root.names = line.names d.root.names d.header := by
  cases line with
  | table path =>
    obtain ⟨path, key, rfl⟩ := (List.eq_nil_or_concat' path).resolve_left hpath
    exact exists_openTable? h.1 h.2
  | item path =>
    obtain ⟨path, key, rfl⟩ := (List.eq_nil_or_concat' path).resolve_left hpath
    exact exists_openItem? h.1 h.2
  | pair path value =>
    obtain ⟨path, key, rfl⟩ := (List.eq_nil_or_concat' path).resolve_left hpath
    rw [Line.Allowed, List.dropLast_concat] at h
    exact exists_addPair? hopen (hvalue _ _ rfl) h.1 h.2

theorem exists_performAll? {full : List (Line Toml)}
    (h : Valid d.root.names d.header full) (hopen : d.root.names.Open d.header)
    (hpath : ∀ line ∈ full, line.path [] ≠ [])
    (hvalue : ∀ path t, Line.pair path t ∈ full → t.named = .value) :
    ∃ d', performAll? d full = some d' := by
  induction full generalizing d with
  | nil => exact ⟨d, rfl⟩
  | cons line full ih =>
    rw [List.forall_mem_cons] at hpath
    obtain ⟨hallowed, hrest⟩ := h
    obtain ⟨root, hperform, hnames⟩ := Draft.exists_perform? hallowed hopen hpath.1
      fun path t heq => hvalue path t (heq ▸ List.mem_cons_self)
    have hopen' := hallowed.opens hopen hpath.1
    rw [← hnames] at hrest hopen'
    obtain ⟨d', hd'⟩ := ih (d := ⟨root, line.header d.header⟩) hrest hopen' hpath.2
      fun path t hmem => hvalue path t (List.mem_cons_of_mem line hmem)
    refine ⟨d', ?_⟩
    rw [performAll?_cons, hperform]
    exact hd'

end Perform

theorem exists_read? {limit : Nat} {text : String} {lines : List (Line (Option String))}
    (h : Document limit text lines) (hv : Valid .root [] lines) :
    ∃ root, read? text limit = some root := by
  obtain ⟨full, hreads, hread⟩ := read?_document h
  have hroot : Entries.names [] = .root := by
    funext q
    by_cases hq : q = []
    · rw [hq, Entries.names_nil]; rfl
    · rw [Entries.names_empty hq, Names.root, if_neg hq]
  have hpath : ∀ line ∈ full, line.path [] ≠ [] := by
    intro line hmem
    have hline := h.path_ne_nil _ (hreads.text ▸ List.mem_map_of_mem hmem)
    cases line <;> exact hline
  rw [← hreads.text, valid_map, ← hroot] at hv
  have hopen := open_root
  rw [← hroot] at hopen
  obtain ⟨d, hd⟩ := exists_performAll? (d := {}) hv hopen hpath hreads.value
  exact ⟨d.root, by rw [hread, hd, Option.map_some]⟩

end Predication.Toml
