import Predication.Proofs.Toml.Document
import Mathlib.Data.List.Forall2

namespace Predication.Definition

open Toml (Entries Line Draft Sets splitKey? placed performAll? addDotted? under? openTable?
  openItem? changeLast?)

section Mention

/-- What a path from the root says of the row at hand: one of its keys, with the text that it is
given. A key that leads to a table is not given a text. -/
def mention : List String → Option String → List (String × Option String)
  | root :: key :: more, text =>
      if root = "symbol" then [(key, if more = [] then text else none)] else []
  | _, _ => []

def mentionsUnder (header : List String) (lines : List (Line (Option String))) :
    List (String × Option String) :=
  (placed header lines).flatMap fun p => mention p.1 p.2

def mentions (row : List (Line (Option String))) : List (String × Option String) :=
  mentionsUnder ["symbol"] row

theorem mention_of_ne {root : String} (h : root ≠ "symbol") (path : List String)
    (text : Option String) : mention (root :: path) text = [] := by
  cases path with
  | nil => rfl
  | cons key more => rw [mention, if_neg h]

def Fits (es : Entries) (m : List (String × Option String)) : Prop :=
  ∀ key text, (key, text) ∈ m ↔ ∃ t, es.get? key = some t ∧ textOf? t = text

theorem fits_nil : Fits [] [] := by
  simp [Fits]

theorem Fits.append {es es' : Entries} {m : List (String × Option String)} {key : String}
    {text : Option String} (h : Fits es m) (hs : Sets key text es es') :
    Fits es' (m ++ [(key, text)]) := by
  intro k t
  obtain ⟨new, hnew, htext⟩ := hs.self
  rw [List.mem_append, List.mem_singleton, h k t, Prod.mk.injEq]
  by_cases hk : k = key
  · subst hk
    constructor
    · rintro (⟨old, hold, rfl⟩ | ⟨-, rfl⟩)
      · obtain ⟨ho, hnone⟩ := hs.before old hold
        exact ⟨new, hnew, by rw [htext, hnone, ho]⟩
      · exact ⟨new, hnew, htext⟩
    · rintro ⟨u, hu, rfl⟩
      rw [hnew] at hu
      cases hu
      exact .inr ⟨rfl, htext⟩
  · rw [hs.other k hk]
    simp only [hk, false_and, or_false]

end Mention

section Action

variable {f : Entries → Option Entries} {key part : String} {more path rest : List String}
  {text : Option String}

/-- Whatever the operation makes of a table, it only sets the first key of its path, to a text only
if the path ends there. -/
def Acts (f : Entries → Option Entries) (key : String) (more : List String)
    (text : Option String) : Prop :=
  ∀ es es', f es = some es' → Sets key (if more = [] then text else none) es es'

theorem acts_addDotted? (t : Toml) (h : path ++ [key] = part :: more) :
    Acts (addDotted? true key t path) part more (textOf? t) := by
  intro es es' hadd
  cases path with
  | nil =>
    cases h
    exact Toml.sets_of_add? hadd
  | cons p path =>
    obtain ⟨rfl, rfl⟩ := List.cons.inj h
    rw [if_neg (by simp)]
    exact Toml.sets_of_addDotted? hadd

theorem acts_openTable? (key : String) : Acts (openTable? key) key [] none := by
  intro es es' h
  exact Toml.sets_of_openTable? h

theorem acts_openItem? (key : String) : Acts (openItem? key) key [] none := by
  intro es es' h
  exact Toml.sets_of_openItem? h

theorem Acts.under? (h : Acts f key more text) (hp : path ++ key :: more = part :: rest) :
    Acts (under? f path) part rest text := by
  intro es es' hf
  cases path with
  | nil =>
    cases hp
    exact h es es' hf
  | cons p path =>
    obtain ⟨rfl, rfl⟩ := List.cons.inj hp
    rw [if_neg (by simp)]
    exact Toml.sets_of_under? hf

end Action

section Draft

variable {d d' : Draft} {line : Line Toml}

theorem exists_acts (h : d.perform? line = some d') :
    ∃ path key more f, line.path d.header = path ++ key :: more ∧
      Acts f key more (line.map textOf?).text ∧ under? f path d.root = some d'.root ∧
      d'.header = line.header d.header ∧
      (path = [] → d.header = [] ∨ line = .item [key] ∨ f = openTable? key) := by
  cases line with
  | table parts =>
    obtain ⟨⟨path, key⟩, hsplit, hopen⟩ := Option.bind_eq_some_iff.mp h
    obtain ⟨root, hroot, rfl⟩ := Option.map_eq_some_iff.mp hopen
    obtain rfl := Toml.exists_concat_of_splitKey? hsplit
    exact ⟨path, key, [], openTable? key, rfl, acts_openTable? key, hroot, rfl,
      fun _ => .inr (.inr rfl)⟩
  | item parts =>
    obtain ⟨⟨path, key⟩, hsplit, hopen⟩ := Option.bind_eq_some_iff.mp h
    obtain ⟨root, hroot, rfl⟩ := Option.map_eq_some_iff.mp hopen
    obtain rfl := Toml.exists_concat_of_splitKey? hsplit
    refine ⟨path, key, [], openItem? key, rfl, acts_openItem? key, hroot, rfl, ?_⟩
    rintro rfl
    exact .inr (.inl rfl)
  | pair parts t =>
    obtain ⟨⟨path, key⟩, hsplit, hadd⟩ := Option.bind_eq_some_iff.mp h
    obtain ⟨root, hroot, rfl⟩ := Option.map_eq_some_iff.mp hadd
    obtain rfl := Toml.exists_concat_of_splitKey? hsplit
    obtain ⟨part, more, hparts⟩ := List.exists_cons_of_ne_nil
      (show path ++ [key] ≠ [] by simp)
    refine ⟨d.header, part, more, addDotted? true key t path, ?_, acts_addDotted? t hparts,
      hroot, rfl, .inl⟩
    rw [Line.path, hparts]

theorem header_of_perform? (h : d.perform? line = some d') : d'.header = line.header d.header := by
  obtain ⟨path, key, more, f, -, -, -, hheader, -⟩ := exists_acts h
  exact hheader

def HasRows (root : Entries) (items : List Entries) : Prop :=
  root.get? "symbol" = if items = [] then none else some (.tables items)

theorem hasRows_nil {root : Entries} : HasRows root [] ↔ root.get? "symbol" = none := by
  rw [HasRows, if_pos rfl]

theorem hasRows_concat {root last : Entries} {done : List Entries} :
    HasRows root (done ++ [last]) ↔ root.get? "symbol" = some (.tables (done ++ [last])) := by
  rw [HasRows, if_neg (by simp)]

theorem hasRows_elsewhere {items : List Entries} (h : d.perform? line = some d')
    (hr : HasRows d.root items) (hp : (line.path d.header).head? ≠ some "symbol") :
    HasRows d'.root items := by
  obtain ⟨path, key, more, f, hpath, hacts, hunder, -, -⟩ := exists_acts h
  obtain ⟨part, rest, hparts⟩ := List.exists_cons_of_ne_nil (show path ++ key :: more ≠ [] by simp)
  have hsets := hacts.under? hparts _ _ hunder
  rw [hpath, hparts] at hp
  rw [HasRows, hsets.other "symbol" fun heq => hp (congrArg some heq.symm)]
  exact hr

theorem exists_perform?_item {items : List Entries} (hr : HasRows d.root items) :
    ∃ root, d.perform? (.item ["symbol"]) = some ⟨root, ["symbol"]⟩ ∧
      HasRows root (items ++ [[]]) := by
  have hopen : ∃ root, openItem? "symbol" d.root = some root ∧ HasRows root (items ++ [[]]) := by
    rw [openItem?]
    by_cases hne : items = []
    · subst hne
      have hnew := hasRows_nil.mp hr
      rw [hnew]
      refine ⟨_, rfl, hasRows_concat.mpr ?_⟩
      rw [Entries.get?_append_single hnew, if_pos rfl]
      rfl
    · rw [HasRows, if_neg hne] at hr
      rw [hr]
      refine ⟨_, rfl, hasRows_concat.mpr ?_⟩
      rw [Entries.get?_put, if_pos rfl]
  obtain ⟨root, hroot, hrows⟩ := hopen
  have hsplit : splitKey? ["symbol"] = some ([], "symbol") := rfl
  refine ⟨root, ?_, hrows⟩
  rw [Draft.perform?, Draft.openItem?, hsplit, Option.bind_some]
  simp only [under?, hroot, Option.map_some]

theorem exists_last {done : List Entries} {last : Entries} (h : d.perform? line = some d')
    (hr : HasRows d.root (done ++ [last])) (hh : d.header ≠ []) (hi : line ≠ .item ["symbol"]) :
    ∃ last', HasRows d'.root (done ++ [last']) ∧ ∀ m, Fits last m →
      Fits last' (m ++ mention (line.path d.header) (line.map textOf?).text) := by
  obtain ⟨path, key, more, f, hpath, hacts, hunder, -, hroot⟩ := exists_acts h
  rw [hasRows_concat] at hr
  rw [hpath]
  cases path with
  | nil =>
    have hkey : key ≠ "symbol" := by
      rintro rfl
      rcases hroot rfl with hnil | hitem | hopen
      · exact hh hnil
      · exact hi hitem
      · rw [under?, hopen, openTable?, hr] at hunder
        cases hunder
    have hsets := hacts _ _ hunder
    refine ⟨last, ?_, fun m hm => ?_⟩
    · rw [hasRows_concat, hsets.other "symbol" hkey.symm]
      exact hr
    · rw [List.nil_append, mention_of_ne hkey, List.append_nil]
      exact hm
  | cons part path =>
    by_cases hpart : part = "symbol"
    · subst hpart
      rw [under?, hr] at hunder
      simp only [Toml.changeLast?_concat, Option.map_map] at hunder
      obtain ⟨last', hlast, hput⟩ := Option.map_eq_some_iff.mp hunder
      obtain ⟨k, rest, hparts⟩ := List.exists_cons_of_ne_nil
        (show path ++ key :: more ≠ [] by simp)
      refine ⟨last', ?_, fun m hm => ?_⟩
      · rw [hasRows_concat, ← hput]
        simp only [Function.comp_apply]
        rw [Entries.get?_put, if_pos rfl]
      · rw [List.cons_append, hparts, mention, if_pos rfl]
        exact hm.append (hacts.under? hparts _ _ hlast)
    · have hsets := hacts.under? rfl _ _ hunder
      refine ⟨last, ?_, fun m hm => ?_⟩
      · rw [hasRows_concat, hsets.other "symbol" (Ne.symm hpart)]
        exact hr
      · rw [List.cons_append, mention_of_ne hpart, List.append_nil]
        exact hm

theorem header_ne_nil (h : d.perform? line = some d') (hh : d.header ≠ []) : d'.header ≠ [] := by
  obtain ⟨path, key, more, f, hpath, -, -, hheader, -⟩ := exists_acts h
  rw [hheader]
  cases line with
  | table parts =>
    rw [Line.path] at hpath
    simp [Line.header, hpath]
  | item parts =>
    rw [Line.path] at hpath
    simp [Line.header, hpath]
  | pair parts t => exact hh

end Draft

section Run

variable {d d' : Draft} {full : List (Line Toml)} {items : List Entries}

theorem placed_cons_map (header : List String) (line : Line Toml) :
    placed header ((line :: full).map (Line.map textOf?)) =
      (line.path header, (line.map textOf?).text) ::
        placed (line.header header) (full.map (Line.map textOf?)) := by
  cases line <;> rfl

theorem hasRows_preamble (h : performAll? d full = some d') (hr : HasRows d.root items)
    (hp : ∀ p ∈ placed d.header (full.map (Line.map textOf?)), p.1.head? ≠ some "symbol") :
    HasRows d'.root items := by
  induction full generalizing d with
  | nil =>
    cases h
    exact hr
  | cons line full ih =>
    rw [Toml.performAll?_cons] at h
    obtain ⟨d₁, hline, hfull⟩ := Option.bind_eq_some_iff.mp h
    rw [placed_cons_map, List.forall_mem_cons, ← header_of_perform? hline] at hp
    exact ih hfull (hasRows_elsewhere hline hr hp.1) hp.2

theorem exists_row {done : List Entries} {last : Entries} (h : performAll? d full = some d')
    (hr : HasRows d.root (done ++ [last])) (hh : d.header ≠ [])
    (hi : Line.item ["symbol"] ∉ full) :
    ∃ last', HasRows d'.root (done ++ [last']) ∧ ∀ m, Fits last m →
      Fits last' (m ++ mentionsUnder d.header (full.map (Line.map textOf?))) := by
  induction full generalizing d last with
  | nil =>
    cases h
    refine ⟨last, hr, fun m hm => ?_⟩
    rw [List.map_nil, mentionsUnder, placed, List.flatMap_nil, List.append_nil]
    exact hm
  | cons line full ih =>
    rw [Toml.performAll?_cons] at h
    obtain ⟨d₁, hline, hfull⟩ := Option.bind_eq_some_iff.mp h
    rw [List.mem_cons, not_or] at hi
    obtain ⟨last₁, hr₁, hfits₁⟩ := exists_last hline hr hh (Ne.symm hi.1)
    obtain ⟨last', hr', hfits⟩ := ih hfull hr₁ (header_ne_nil hline hh) hi.2
    refine ⟨last', hr', fun m hm => ?_⟩
    have hlast := hfits _ (hfits₁ m hm)
    rw [header_of_perform? hline, List.append_assoc] at hlast
    rw [mentionsUnder, placed_cons_map, List.flatMap_cons]
    exact hlast

theorem eq_item_of_map {line : Line Toml} {path : List String}
    (h : line.map textOf? = .item path) : line = .item path := by
  cases line <;> cases h
  rfl

theorem exists_rows {rows : List (List (Line (Option String)))}
    (h : performAll? d full = some d')
    (hfull : full.map (Line.map textOf?) = rows.flatMap (.item ["symbol"] :: ·))
    (hr : HasRows d.root items) (hi : ∀ row ∈ rows, Line.item ["symbol"] ∉ row) :
    ∃ more, HasRows d'.root (items ++ more) ∧
      List.Forall₂ (fun es row => Fits es (mentions row)) more rows := by
  induction rows generalizing d full items with
  | nil =>
    obtain rfl := List.map_eq_nil_iff.mp hfull
    cases h
    exact ⟨[], by rwa [List.append_nil], .nil⟩
  | cons row rows ih =>
    rw [List.flatMap_cons] at hfull
    obtain ⟨first, others, rfl, hfirst, hothers⟩ := List.map_eq_append_iff.mp hfull
    obtain ⟨line, body, rfl, hline, rfl⟩ := List.map_eq_cons_iff.mp hfirst
    obtain rfl := eq_item_of_map hline
    rw [List.forall_mem_cons] at hi
    obtain ⟨root, hroot, hr₁⟩ := exists_perform?_item hr
    rw [List.cons_append, Toml.performAll?_cons, hroot, Option.bind_some,
      Toml.performAll?_append] at h
    obtain ⟨d₂, hbody, hrest⟩ := Option.bind_eq_some_iff.mp h
    have hnot : Line.item ["symbol"] ∉ body := fun hmem =>
      hi.1 (List.mem_map_of_mem hmem)
    obtain ⟨last, hr₂, hfits⟩ := exists_row hbody hr₁ (List.cons_ne_nil _ _) hnot
    obtain ⟨more, hmore, hall⟩ := ih hrest hothers hr₂ hi.2
    refine ⟨last :: more, ?_, .cons (hfits [] fits_nil) hall⟩
    rwa [List.append_assoc] at hmore

end Run

end Predication.Definition
