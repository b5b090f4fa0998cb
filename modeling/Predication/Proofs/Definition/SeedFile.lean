import Predication.Proofs.Definition.Row
import Predication.Proofs.Toml.Acceptance

namespace Predication.Definition

open Toml (Basic Document Entries Key KeyPart Line Lines Space Valid Value placed read?)

section Reading

variable {es : Entries} {row : List (Line (Option String))} {d : Definition}

structure Gives (row : List (Line (Option String))) (d : Definition) : Prop where
  name : ("name", some d.name) ∈ mentions row
  category : ("category", some d.category) ∈ mentions row
  embedding : ("embedding", some d.embedding) ∈ mentions row ∨
    d.embedding = "" ∧ ∀ text, ("embedding", text) ∉ mentions row

def Spoiled (row : List (Line (Option String))) : Prop :=
  (∃ key ∈ ["name", "category"], ∀ text, (key, text) ∉ mentions row) ∨
    ∃ key ∈ ["name", "category", "embedding"], (key, none) ∈ mentions row

theorem ofEntries?_eq_some_iff :
    ofEntries? es = some d ↔
      (∃ t, es.get? "name" = some t ∧ textOf? t = some d.name) ∧
      (∃ t, es.get? "category" = some t ∧ textOf? t = some d.category) ∧
      ((∃ t, es.get? "embedding" = some t ∧ textOf? t = some d.embedding) ∨
        d.embedding = "" ∧ es.get? "embedding" = none) := by
  obtain ⟨name, category, embedding⟩ := d
  simp only [ofEntries?, Option.bind_eq_bind, Option.bind_eq_some_iff]
  constructor
  · rintro ⟨a, ha, n, hn, b, hb, c, hc, h⟩
    split at h
    · next he =>
      cases h
      exact ⟨⟨a, ha, hn⟩, ⟨b, hb, hc⟩, .inr ⟨rfl, he⟩⟩
    · next e he =>
      obtain ⟨t, ht, h⟩ := Option.bind_eq_some_iff.mp h
      cases h
      exact ⟨⟨a, ha, hn⟩, ⟨b, hb, hc⟩, .inl ⟨e, he, ht⟩⟩
  · rintro ⟨⟨a, ha, hn⟩, ⟨b, hb, hc⟩, ⟨e, he, ht⟩ | ⟨rfl, he⟩⟩
    · refine ⟨a, ha, name, hn, b, hb, category, hc, ?_⟩
      rw [he]
      simp only [ht, Option.bind_some]
    · refine ⟨a, ha, name, hn, b, hb, category, hc, ?_⟩
      rw [he]

theorem Fits.get?_eq_none_iff {m : List (String × Option String)} (h : Fits es m) (key : String) :
    es.get? key = none ↔ ∀ text, (key, text) ∉ m := by
  constructor
  · intro hnone text hmem
    obtain ⟨t, ht, -⟩ := (h key text).mp hmem
    rw [hnone] at ht
    cases ht
  · intro hno
    cases hget : es.get? key with
    | none => rfl
    | some t => exact absurd ((h key (textOf? t)).mpr ⟨t, hget, rfl⟩) (hno _)

theorem ofEntries?_iff_gives (h : Fits es (mentions row)) :
    ofEntries? es = some d ↔ Gives row d := by
  rw [ofEntries?_eq_some_iff, ← h, ← h, ← h, h.get?_eq_none_iff]
  exact ⟨fun ⟨hn, hc, he⟩ => ⟨hn, hc, he⟩, fun hg => ⟨hg.name, hg.category, hg.embedding⟩⟩

theorem not_gives_of_spoiled (h : Fits es (mentions row)) (hs : Spoiled row) : ¬ Gives row d := by
  have hone {key : String} {text : String} (hsome : (key, some text) ∈ mentions row) :
      (key, none) ∉ mentions row := by
    intro hnone
    obtain ⟨t, ht, htext⟩ := (h key (some text)).mp hsome
    obtain ⟨u, hu, hutext⟩ := (h key none).mp hnone
    rw [ht] at hu
    cases hu
    rw [htext] at hutext
    cases hutext
  intro hg
  rcases hs with ⟨key, hkey, hno⟩ | ⟨key, hkey, hnone⟩
  · simp only [List.mem_cons, List.not_mem_nil, or_false] at hkey
    rcases hkey with rfl | rfl
    · exact hno _ hg.name
    · exact hno _ hg.category
  · simp only [List.mem_cons, List.not_mem_nil, or_false] at hkey
    rcases hkey with rfl | rfl | rfl
    · exact hone hg.name hnone
    · exact hone hg.category hnone
    · rcases hg.embedding with he | ⟨-, hno⟩
      · exact hone he hnone
      · exact hno none hnone

theorem mapM_ofEntries?_eq_some {items : List Entries} {ds : List Definition}
    {rows : List (List (Line (Option String)))}
    (h : List.Forall₂ (fun es row => Fits es (mentions row)) items rows)
    (hg : List.Forall₂ Gives rows ds) : items.mapM ofEntries? = some ds := by
  induction h generalizing ds with
  | nil =>
    cases hg
    rfl
  | cons hfits h ih =>
    cases hg with
    | cons hgives hg =>
      rw [List.mapM_cons, (ofEntries?_iff_gives hfits).mpr hgives, ih hg]
      rfl

theorem mapM_ofEntries?_eq_none {items : List Entries} {rows : List (List (Line (Option String)))}
    (h : List.Forall₂ (fun es row => Fits es (mentions row)) items rows)
    (hs : ∃ row ∈ rows, Spoiled row) : items.mapM ofEntries? = none := by
  induction h with
  | nil =>
    obtain ⟨row, hmem, -⟩ := hs
    cases hmem
  | @cons es row items rows hfits h ih =>
    rw [List.mapM_cons]
    cases hes : ofEntries? es with
    | none => rfl
    | some d =>
      have hgives := (ofEntries?_iff_gives hfits).mp hes
      have hmore : ∃ row ∈ rows, Spoiled row := by
        obtain ⟨r, hmem, hr⟩ := hs
        rcases List.mem_cons.mp hmem with rfl | hmem
        · exact absurd hgives (not_gives_of_spoiled hfits hr)
        · exact ⟨r, hmem, hr⟩
      rw [ih hmore]
      rfl

theorem ofDocument?_of_hasRows {root : Entries} {items : List Entries} (h : HasRows root items) :
    ofDocument? root = items.mapM ofEntries? := by
  rw [HasRows] at h
  rw [ofDocument?, h]
  by_cases hnil : items = []
  · subst hnil
    rfl
  · rw [if_neg hnil]

end Reading

section Rows

/-- A document with a header of the list of tables for each row. Nothing before the first one is
about the list. -/
structure SeedDocument (limit : Nat) (text : String) (preamble : List (Line (Option String)))
    (rows : List (List (Line (Option String)))) : Prop where
  document : Document limit text (preamble ++ rows.flatMap (.item ["symbol"] :: ·))
  valid : Valid .root [] (preamble ++ rows.flatMap (.item ["symbol"] :: ·))
  preamble : ∀ p ∈ placed [] preamble, p.1.head? ≠ some "symbol"
  rows : ∀ row ∈ rows, Line.item ["symbol"] ∉ row

variable {limit : Nat} {text : String} {preamble : List (Line (Option String))}
  {rows : List (List (Line (Option String)))}

theorem SeedDocument.exists_items (h : SeedDocument limit text preamble rows) :
    ∃ items, (read? text limit).bind ofDocument? = items.mapM ofEntries? ∧
      List.Forall₂ (fun es row => Fits es (mentions row)) items rows := by
  obtain ⟨root, hread⟩ := Toml.exists_read? h.document h.valid
  obtain ⟨full, hreads, hperform⟩ := Toml.read?_document h.document
  rw [hread] at hperform
  obtain ⟨d, hd, rfl⟩ := Option.map_eq_some_iff.mp hperform.symm
  obtain ⟨first, others, rfl, rfl, hothers⟩ := List.map_eq_append_iff.mp hreads.text
  rw [Toml.performAll?_append] at hd
  obtain ⟨d₁, hfirst, hrest⟩ := Option.bind_eq_some_iff.mp hd
  have hnone : HasRows d₁.root [] := hasRows_preamble hfirst (hasRows_nil.mpr rfl) h.preamble
  obtain ⟨items, hitems, hfits⟩ := exists_rows hrest hothers hnone h.rows
  rw [hread, Option.bind_some]
  exact ⟨items, ofDocument?_of_hasRows hitems, hfits⟩

/-- Rows are read one for one, and a single one that gives no definition spoils the document. -/
theorem readSeed_rows (h : SeedDocument limit text preamble rows) :
    (∀ ds, List.Forall₂ Gives rows ds → readSeed text limit = .ok ds) ∧
      ((∃ row ∈ rows, Spoiled row) → readSeed text limit = .error .seedFormat) := by
  obtain ⟨items, hitems, hfits⟩ := h.exists_items
  constructor
  · intro ds hgives
    rw [readSeed, hitems, mapM_ofEntries?_eq_some hfits hgives]
  · intro hspoiled
    rw [readSeed, hitems, mapM_ofEntries?_eq_none hfits hspoiled]

section Lines

variable {ds : List Char} {lines : List (Line (Option String))}

theorem space_nil : Space [] := by
  simp [Space]

theorem space_single : Space [' '] := by
  simp [Space]

theorem keyPart_bare (cs : List Char) (hne : cs ≠ [])
    (h : cs.all Toml.isBareKeyChar = true) : KeyPart cs cs :=
  .bare hne fun c hc => Toml.isBareKeyChar_iff.mp (List.all_eq_true.mp h c hc)

theorem key_bare (cs : List Char) (hne : cs ≠ []) (h : cs.all Toml.isBareKeyChar = true) :
    Key (cs ++ [' ']) [String.ofList cs] :=
  .last (a := []) space_nil (keyPart_bare cs hne h) space_single

theorem basic_plain (cs : List Char)
    (h : cs.all (fun c => c != '"' && c != '\\' && Toml.isPlain c) = true) :
    Basic cs cs := by
  induction cs with
  | nil => exact .nil
  | cons c cs ih =>
    rw [List.all_cons, Bool.and_eq_true, Bool.and_eq_true, Bool.and_eq_true, bne_iff_ne,
      bne_iff_ne, Toml.isPlain_iff] at h
    obtain ⟨⟨⟨hq, hb⟩, hc⟩, h⟩ := h
    exact .cons (.plain hq hb hc) (ih h)

theorem value_plain {depth : Nat} (cs : List Char)
    (h : cs.all (fun c => c != '"' && c != '\\' && Toml.isPlain c) = true) :
    Value limit depth ('"' :: (cs ++ ['"'])) (some (String.ofList cs)) :=
  .text (.basic (basic_plain cs h))

theorem lines_item (hl : 1 < limit) (h : Lines limit ds lines) :
    Lines limit ("[[symbol]]\n".toList ++ ds) (.item ["symbol"] :: lines) := by
  have hkey : Key "symbol".toList ["symbol"] :=
    .last (a := []) (b := []) space_nil (keyPart_bare "symbol".toList (by decide) rfl) space_nil
  exact Lines.more (a := []) (b := []) space_nil (.item hkey hl) space_nil .absent .lineFeed h

theorem lines_pair {ks cs : List Char} {path : List String} {v : Option String} (hk : Key ks path)
    (hl : path.length < limit) (hv : Value limit (limit - 1) cs v) (h : Lines limit ds lines) :
    Lines limit (ks ++ '=' :: ' ' :: (cs ++ '\n' :: ds)) (.pair path v :: lines) := by
  have hstatement : Toml.Statement limit (ks ++ '=' :: ([' '] ++ cs)) [.pair path v] :=
    .pair hk hl space_single hv
  have hlines := Lines.more (a := []) (b := []) space_nil hstatement space_nil .absent .lineFeed h
  simpa using hlines

theorem lines_end : Lines limit [] [] :=
  Lines.last (a := []) (b := []) space_nil .blank space_nil .absent

end Lines

theorem readSeed_two_rows :
    readSeed
        ("[[symbol]]\ncategory = \"Predicate\"\nname = \"\\tgo\"\nx.y = 1\n" ++
          "[[symbol]]\nname = \"A\"\ncategory = \"C\"\nembedding = \"0.5\"\n") =
        .ok [⟨"\tgo", "Predicate", ""⟩, ⟨"A", "C", "0.5"⟩] ∧
      readSeed "[[symbol]]\nname = 1\n" = .error .seedFormat := by
  have hescaped : Value Toml.depthLimit 79 "\"\\tgo\"".toList (some "\tgo") :=
    .text (.basic (.cons (.escape .tab) (basic_plain ['g', 'o'] rfl)))
  have hone : Value Toml.depthLimit 79 ['1'] none :=
    .scalar (.integer (.decimal .absent (.run (.last rfl) (by decide)) (.inl (by decide))))
  have hdotted : Key "x.y ".toList ["x", "y"] :=
    .dotted (a := []) (b := []) space_nil (keyPart_bare ['x'] (by decide) rfl) space_nil
      (key_bare ['y'] (by decide) rfl)
  have hname : Key "name ".toList ["name"] := key_bare "name".toList (by decide) rfl
  have hcategory : Key "category ".toList ["category"] :=
    key_bare "category".toList (by decide) rfl
  have hembedding : Key "embedding ".toList ["embedding"] :=
    key_bare "embedding".toList (by decide) rfl
  have hgood : SeedDocument Toml.depthLimit
      ("[[symbol]]\ncategory = \"Predicate\"\nname = \"\\tgo\"\nx.y = 1\n" ++
        "[[symbol]]\nname = \"A\"\ncategory = \"C\"\nembedding = \"0.5\"\n") []
      [[.pair ["category"] (some "Predicate"), .pair ["name"] (some "\tgo"),
          .pair ["x", "y"] none],
        [.pair ["name"] (some "A"), .pair ["category"] (some "C"),
          .pair ["embedding"] (some "0.5")]] := by
    refine ⟨.bare ?_, by decide, by simp [placed], by simp⟩
    exact lines_item (by decide) <|
      lines_pair hcategory (by decide) (value_plain "Predicate".toList rfl) <|
      lines_pair hname (by decide) hescaped <| lines_pair hdotted (by decide) hone <|
      lines_item (by decide) <| lines_pair hname (by decide) (value_plain ['A'] rfl) <|
      lines_pair hcategory (by decide) (value_plain ['C'] rfl) <|
      lines_pair hembedding (by decide) (value_plain "0.5".toList rfl) lines_end
  have hbad : SeedDocument Toml.depthLimit "[[symbol]]\nname = 1\n" []
      [[.pair ["name"] none]] := by
    refine ⟨.bare ?_, by decide, by simp [placed], by simp⟩
    exact lines_item (by decide) <| lines_pair hname (by decide) hone lines_end
  refine ⟨(readSeed_rows hgood).1 _ (.cons ?_ (.cons ?_ .nil)),
    (readSeed_rows hbad).2 ⟨_, List.mem_cons_self, .inr ⟨"name", by simp, by decide⟩⟩⟩
  · refine ⟨by decide, by decide, .inr ⟨rfl, ?_⟩⟩
    simp [mentions, mentionsUnder, placed, mention, Line.path, Line.header]
  · exact ⟨by decide, by decide, .inl (by decide)⟩

end Rows

end Predication.Definition
