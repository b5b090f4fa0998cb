import Predication.Proofs.Command.Effect

namespace Predication

open Database (ofTables putRows)

def Command.events (c : Command) (path : String) (t : FileTree) (r : Report) : History :=
  if r.exitCode = 0 then
    match c with
    | .upsert d => [.wrote d]
    | .remove name => [.removed name]
    | .setup seedFile =>
        match t.openStore path with
        | .error _ => []
        | .ok s =>
            match seedRows s.tree seedFile with
            | .error _ => []
            | .ok rows => (batch rows).map .wrote
    | _ => []
  else []

namespace Command

theorem events_of_failure (c : Command) (path : String) (t : FileTree) (e : CommandError) :
    c.events path t (.failure e) = [] :=
  rfl

theorem events_of_apart {c : Command} {path : String} {t : FileTree} {showsWarnings : Bool}
    {r : Report} (h : Apart t showsWarnings c r) : c.events path t r = [] := by
  cases h with
  | refused bad => rfl
  | expanded => exact ite_self _
  | labelled => rfl

end Command

namespace Invocation

def events (i : Invocation) (env : Environment) (t : FileTree) : History :=
  i.command.events (i.databasePath env) t (i.run env t).1

def runAll (runs : List (Invocation × Environment)) (t : FileTree) : FileTree × History :=
  runs.foldl (fun (t, es) (i, env) => ((i.run env t).2, es ++ i.events env t)) (t, [])

structure Tells (m : KeyMap String String) (tbl : DefinitionTable) (es : History) : Prop where
  index : tbl.categoryIndex = true
  lists : tbl.Lists es
  version : m.get? Schema.versionKey = some (Text.intText Schema.supported)
  parses : ∀ d ∈ es.live, d.vector.isOk

namespace Tells

variable {m : KeyMap String String} {tbl : DefinitionTable} {es : History}

theorem vector_ne_error (h : Tells m tbl es) {name : String} {d : Definition}
    (hd : tbl.listing.find? name = some d) {cause : EmbeddingError} : d.vector ≠ .error cause := by
  intro hv
  have hok := h.parses d (h.lists.listed.perm.mem_iff.mp (List.mem_of_find?_eq_some hd))
  rw [hv] at hok
  cases hok

theorem removed (h : Tells m tbl es) (name : String) :
    Tells m (tbl.erase name) (es ++ [.removed name]) where
  index := h.index
  lists := h.lists.removed name
  version := h.version
  parses := by
    intro d hd
    rw [History.live_removed] at hd
    exact h.parses d (List.mem_filter.mp hd).1

theorem wrote (h : Tells m tbl es) {d : Definition} (hv : d.vector.isOk) :
    Tells m (tbl.put d) (es ++ [.wrote d]) where
  index := h.index
  lists := h.lists.wrote d
  version := h.version
  parses := by
    intro e he
    rw [History.live_wrote] at he
    rcases Listing.mem_of_mem_write he with he | rfl
    · exact h.parses e he
    · exact hv

theorem seeded (h : Tells m tbl es) {ds : List Definition} (ha : Acceptable ds) (size : String) :
    Tells (m.insert Store.lastSeedKey size) (putRows tbl ds) (es ++ ds.map .wrote) where
  index := by rw [Database.categoryIndex_putRows, h.index]
  lists := h.lists.wroteAll ds
  version := by rw [KeyMap.get?_insert, if_neg (by decide), h.version]
  parses := by
    intro e he
    rw [History.live_wroteAll] at he
    rcases Listing.mem_of_mem_foldl_write he with he | he
    · exact h.parses e he
    · exact (ha e he).2

theorem effect {c : Command} {path : String} {t : FileTree} {s : Session} {r : Report}
    {m' : KeyMap String String} {tbl' : DefinitionTable} (h : Tells m tbl es)
    (hs : t.openStore path = .ok s) (he : Command.Effect s.tree m tbl c r m' tbl') :
    Tells m' tbl' (es ++ c.events path t r) := by
  have hsame : ∀ {c : Command} {r : Report}, c.events path t r = [] →
      Tells m tbl (es ++ c.events path t r) := by
    intro c r hr
    rwa [hr, List.append_nil]
  cases he with
  | failed other well => exact hsame rfl
  | symbols => exact hsame rfl
  | stats => exact hsame rfl
  | found there parses => exact hsame rfl
  | missing gone => exact hsame rfl
  | malformed there bad => exact hsame rfl
  | removed there => exact h.removed _
  | stored parses => exact h.wrote parses
  | @seeded seedFile rows read acceptable =>
    have hevents : ∀ lines, (Command.setup seedFile).events path t (.ofLines lines) =
        (Command.batch rows).map .wrote := by
      intro lines
      have hexit : (Report.ofLines lines).exitCode = 0 := rfl
      rw [Command.events, if_pos hexit, hs]
      dsimp only
      rw [read]
    rw [hevents]
    exact h.seeded acceptable _

end Tells

structure Carries (db : Database) (m : KeyMap String String) (tbl : DefinitionTable)
    (es : History) : Prop where
  prepares : (Schema.prepare db).answer = .ok ()
  final : (Schema.prepare db).final db = ofTables m tbl
  tells : Tells m tbl es
  shows : db = .blank ∧ es.live = [] ∨ ∃ l, (Store.all db).answer = .ok l ∧ es.Listed l

namespace Carries

variable {db : Database} {m : KeyMap String String} {tbl : DefinitionTable} {es : History}

theorem keepsRefused (h : Carries db m tbl es) : Schema.KeepsRefused db :=
  Schema.keepsRefused_of_ok h.prepares

theorem ne_blank (h : Carries db m tbl es) (hl : es.live ≠ []) : db ≠ .blank := by
  rintro rfl
  rcases h.shows with ⟨-, hn⟩ | hs
  · exact hl hn
  · obtain ⟨l, hs, -⟩ := hs
    cases hs

theorem blank (hl : es.live = []) :
    Carries .blank [(Schema.versionKey, Text.intText Schema.supported)]
      { categoryIndex := true } es where
  prepares := rfl
  final := rfl
  tells := {
    index := rfl
    lists := DefinitionTable.lists_of_nil rfl hl
    version := rfl
    parses := by simp [hl] }
  shows := .inl ⟨rfl, hl⟩

theorem ofTells (h : Tells m tbl es) :
    Carries (ofTables m tbl) (m.insert Schema.versionKey (Text.intText Schema.supported)) tbl
      es where
  prepares := (Schema.prepare_of_supports tbl (h.version ▸ Schema.supports_supported)).1
  final := by
    have hf := (Schema.prepare_of_supports tbl (h.version ▸ Schema.supports_supported)).2
    rw [DefinitionTable.indexed_of_categoryIndex h.index] at hf
    exact hf
  tells := { h with version := by rw [KeyMap.get?_insert, if_pos rfl] }
  shows := .inr ⟨tbl.listing, Store.all_ofTables m tbl, h.lists.listed⟩

end Carries

/-- What is in the place of a store. A directory can be made there on the way to it. -/
inductive Contents (t : FileTree) (names : List String) (es : History) : Prop
  | directory (there : t.isDirectoryAt names) (none : es.live = [])
  | database {db : Database} {m : KeyMap String String} {tbl : DefinitionTable}
      (there : t.database? names = some db) (carries : Carries db m tbl es)

/-- What runs of the program keep in the place of a store: what their events make live. Once a
definition is live, a store opens at a plain path. -/
structure Kept (path : String) (names : List String) (t : FileTree) (es : History) : Prop where
  address : t.addressed? path = some names
  contents : Contents t names es
  parses : ∀ d ∈ es.live, d.vector.isOk
  logs : FileTree.IsPlain path → t.LogsAt names
  ready : FileTree.IsPlain path → es.live ≠ [] → t.Ready path names

namespace Kept

variable {path : String} {names : List String} {t t' : FileTree} {es : History}

theorem makeAbove (h : Kept path names t es) : Kept path names (t.makeAbove path).1 es := by
  have hgrows := FileTree.grows_makeAbove t path
  refine ⟨?_, ?_, h.parses, fun hp => ?_, fun hp hl => ?_⟩
  · rw [FileTree.addressed?_congr hgrows.workingDirectory, h.address]
  · rcases hgrows.node names with hn | ⟨hn, hd⟩
    · cases h.contents with
      | directory there none =>
        refine .directory ?_ none
        rwa [FileTree.isDirectoryAt_iff, hn, ← FileTree.isDirectoryAt_iff]
      | database there carries =>
        refine .database ?_ carries
        rwa [FileTree.database?, hn]
    · refine .directory (FileTree.isDirectoryAt_iff.mpr hd) ?_
      cases h.contents with
      | directory there none => exact none
      | database there carries =>
        rw [FileTree.database?_of_none hn] at there
        by_contra hl
        exact carries.ne_blank hl (Option.some.inj there).symm
  · intro db journal hnode
    rcases hgrows.node names with hn | ⟨-, hd⟩
    · exact h.logs hp db journal (hn ▸ hnode)
    · rw [hd] at hnode
      cases hnode
  · rw [(h.ready hp hl).makeAbove]
    exact h.ready hp hl

theorem of_same (h : Kept path names t es) (same : FileTree.SameDirectories t t')
    {db : Database} {m : KeyMap String String} {tbl : DefinitionTable}
    (there : t'.database? names = some db) (carries : Carries db m tbl es)
    (logs : FileTree.IsPlain path → t'.LogsAt names) : Kept path names t' es where
  address := by rw [FileTree.addressed?_congr same.workingDirectory, h.address]
  contents := .database there carries
  parses := h.parses
  logs := logs
  ready := fun hp hl => same.ready (h.ready hp hl)

theorem run (h : Kept path names t es) (c : Command) (showsWarnings : Bool) :
    Kept path names (c.run path showsWarnings t).2
      (es ++ c.events path t (c.run path showsWarnings t).1) := by
  obtain ⟨a, ha, htransient, hnames⟩ := FileTree.addressed?_eq_some h.address
  have hguard : FileTree.IsPlain path → a.guard = .locks := by
    intro hp
    cases Option.some.inj (ha.symm.trans hp.read?)
    rfl
  have hlogged : FileTree.IsPlain path → a.guard.admitsLog := by
    intro hp
    rw [hguard hp]
    rfl
  -- The command sees the tree once the directories above the file are made. If one of them is where
  -- the file should be, no store opens from then on.
  cases h.makeAbove.contents with
  | directory there none =>
    rcases Command.run_cases c path showsWarnings t with ⟨f, -, hr⟩ | ⟨r, hapart, hr⟩
    · obtain ⟨e, he⟩ := FileTree.openStore_of_isDirectoryAt h.address there
      rw [hr, Command.withStore_of_error he, Command.events_of_failure, List.append_nil]
      exact h.makeAbove
    · rw [hr, Command.events_of_apart hapart, List.append_nil]
      exact h
  | database there carries =>
    have houtcome := Command.outcome_run c showsWarnings ha htransient hnames there
      carries.keepsRefused (fun _ => carries.final) carries.tells.lists.wellFormed
    generalize c.run path showsWarnings t = result at houtcome ⊢
    cases houtcome with
    | apart apart =>
      rw [Command.events_of_apart apart, List.append_nil]
      exact h
    | unopened fails same kept logs =>
      rw [Command.events_of_failure, List.append_nil]
      exact h.makeAbove.of_same same kept carries fun hp => logs (hlogged hp) (h.makeAbove.logs hp)
    | opened opens effect node before same logs clear =>
      have htells := carries.tells.effect opens effect
      refine ⟨?_, ?_, htells.parses, fun hp => ?_, fun hp _ => ?_⟩
      · rw [FileTree.addressed?_congr (before.trans same).workingDirectory, h.makeAbove.address]
      · exact .database (FileTree.database?_of_node node) (.ofTells htells)
      · exact (FileTree.logsAt_of_node node).mpr (logs (hlogged hp) (h.makeAbove.logs hp))
      · exact same.ready
          (FileTree.ready_of_openStore hp h.address (clear (hguard hp)) before opens)

theorem invocation (h : Kept path names t es) (i : Invocation) (env : Environment)
    (hi : i.databasePath env = path) : Kept path names (i.run env t).2 (es ++ i.events env t) := by
  rw [Invocation.events, Invocation.run, hi]
  cases i.showsWarnings? env with
  | none =>
    have hevents : i.command.events path t .abort = [] := rfl
    dsimp only
    rwa [hevents, List.append_nil]
  | some showsWarnings => exact h.run i.command showsWarnings

theorem runAll (h : t.addressed? path = some names) (hn : t.node? names = none)
    (runs : List (Invocation × Environment))
    (hruns : ∀ x ∈ runs, x.1.databasePath x.2 = path) :
    Kept path names (Invocation.runAll runs t).1 (Invocation.runAll runs t).2 := by
  induction runs using List.reverseRecOn with
  | nil =>
    refine ⟨h, .database (FileTree.database?_of_none hn) (.blank rfl),
      fun d hd => absurd hd List.not_mem_nil, fun _ db journal hnode => ?_,
      fun _ hl => absurd rfl hl⟩
    have hnone : t.node? names = some (.database db journal) := hnode
    rw [hn] at hnone
    cases hnone
  | append_singleton runs x ih =>
    have hkept := ih fun y hy => hruns y (List.mem_append_left _ hy)
    rw [Invocation.runAll, List.foldl_concat]
    exact hkept.invocation x.1 x.2 (hruns x (by simp))

theorem holds (h : Kept path names t es) {s : Session} (hs : t.openStore path = .ok s) :
    ∃ journal log m tbl, s.Holds names journal log (ofTables m tbl) ∧ Tells m tbl es := by
  obtain ⟨a, ha, htransient, hnames⟩ := FileTree.addressed?_eq_some h.address
  cases h.makeAbove.contents with
  | directory there none =>
    obtain ⟨e, he⟩ := FileTree.openStore_of_isDirectoryAt h.address there
    rw [hs] at he
    cases he
  | database there carries =>
    have hleaves := FileTree.leaves_openStore ha htransient hnames carries.keepsRefused there
    rw [hs] at hleaves
    cases hleaves with
    | opened same place node prepared logs clear =>
      rw [carries.final] at node
      exact ⟨_, _, _, _, ⟨place, node⟩, carries.tells⟩

theorem opens (h : Kept path names t es) (hp : FileTree.IsPlain path) (hl : es.live ≠ []) :
    ∃ s, t.openStore path = .ok s := by
  obtain ⟨a, ha, htransient, -⟩ := FileTree.addressed?_eq_some h.address
  cases Option.some.inj (ha.symm.trans hp.read?)
  have hready := h.ready hp hl
  cases h.contents with
  | directory there none => exact absurd none hl
  | database there carries =>
    obtain ⟨journal, hn⟩ := FileTree.node?_of_database? there (carries.ne_blank hl)
    cases h.logs hp _ _ hn
    exact FileTree.openStore_of_ready hp htransient hready hn carries.prepares

theorem lookup (h : Kept path names t es) (name : String) (showsWarnings : Bool)
    (hopens : FileTree.IsPlain path ∨ (t.openStore path).isOk) :
    ((Command.lookup name).run path showsWarnings t).1.exitCode = 0 ↔
      (es.standing? name).isSome := by
  rw [← History.find?_live]
  cases hs : t.openStore path with
  | error found =>
    -- A plain path opens as soon as something is live, so here nothing is.
    have hnone : es.live.find? name = none := by
      rcases hopens with hp | ho
      · have hl : es.live = [] := by
          by_contra hl
          obtain ⟨s, hs'⟩ := h.opens hp hl
          rw [hs] at hs'
          cases hs'
        rw [hl]
        rfl
      · rw [hs] at ho
        cases ho
    have hrun : (Command.lookup name).run path showsWarnings t =
        (.failure (.openStore path found.1), found.2) :=
      Command.withStore_of_error hs
    rw [hrun, hnone]
    exact ⟨nofun, nofun⟩
  | ok s =>
    obtain ⟨journal, log, m, tbl, hholds, htells⟩ := h.holds hs
    obtain ⟨r, m', tbl', hends, heffect⟩ :=
      Command.works_runLookup name s names journal log m tbl hholds htells.lists.wellFormed
    have hrun : ((Command.lookup name).run path showsWarnings t).1 = r :=
      (congrArg Prod.fst (Command.withStore_of_ok hs)).trans hends.report
    rw [hrun, ← Listing.find?_of_perm htells.lists.listed.perm htells.lists.wellFormed.distinct]
    cases heffect with
    | failed other well => exact absurd rfl (other name)
    | found there parses => simp [there, Report.ofLines, Report.exitCode]
    | missing gone => simp [gone, Report.failure, Report.exitCode]
    | malformed there bad => exact absurd bad (htells.vector_ne_error there)

theorem error_ne_malformed (h : Kept path names t es) (c : Command) (showsWarnings : Bool)
    (name : String) (cause : EmbeddingError) :
    (c.run path showsWarnings t).1.error ≠ some (.malformed name cause) := by
  rcases Command.run_cases c path showsWarnings t with ⟨f, hf, hr⟩ | ⟨r, hapart, hr⟩
  · rw [hr]
    cases hs : t.openStore path with
    | error found =>
      rw [Command.withStore_of_error hs]
      nofun
    | ok s =>
      obtain ⟨journal, log, m, tbl, hholds, htells⟩ := h.holds hs
      obtain ⟨r, m', tbl', hends, heffect⟩ :=
        hf s names journal log m tbl hholds htells.lists.wellFormed
      rw [Command.withStore_of_ok hs, hends.report]
      cases heffect with
      | failed other well => exact fun he => well name cause (Option.some.inj he)
      | malformed there bad => exact absurd bad (htells.vector_ne_error there)
      | _ => nofun
  · rw [hr]
    cases hapart with
    | refused bad => nofun
    | labelled => nofun
    | @expanded file axis =>
      rw [Command.runExpand]
      split
      · nofun
      · split
        · nofun
        · split
          · nofun
          · nofun

theorem resolves (h : Kept path names t es) {s : Session} (hs : t.openStore path = .ok s) :
    ∃ l, es.Listed l ∧ (s.run Store.resolveAll).1 = .ok (l.map Definition.resolve) := by
  obtain ⟨journal, log, m, tbl, hholds, htells⟩ := h.holds hs
  exact ⟨tbl.listing, htells.lists.listed, by rw [hholds.run]; rfl⟩

end Kept

/-- What holds in the place of a store, which an address leads to, after events that runs of the
program brought about there. -/
structure Sound (path : String) (names : List String) (t : FileTree) (es : History) : Prop where
  stored : ∀ db journal, t.node? names = some (.database db journal) →
    db = .blank ∧ es.live = [] ∨ ∃ l, (Store.all db).answer = .ok l ∧ es.Listed l
  absent : (∀ db journal, t.node? names ≠ some (.database db journal)) → es.live = []
  parses : ∀ d ∈ es.live, d.vector = .ok d.resolve.embedding
  lookup : ∀ (i : Invocation) (env : Environment) (name : String), i.databasePath env = path →
    i.command = .lookup name → (i.showsWarnings? env).isSome →
    FileTree.IsPlain path ∨ (t.openStore path).isOk →
    ((i.run env t).1.exitCode = 0 ↔ (es.standing? name).isSome)
  malformed : ∀ (i : Invocation) (env : Environment) (name : String) (cause : EmbeddingError),
    i.databasePath env = path → (i.run env t).1.error ≠ some (.malformed name cause)
  resolves : ∀ s, t.openStore path = .ok s →
    ∃ l, es.Listed l ∧ (s.run Store.resolveAll).1 = .ok (l.map Definition.resolve)

theorem Kept.sound {path : String} {names : List String} {t : FileTree} {es : History}
    (h : Kept path names t es) : Sound path names t es where
  stored := by
    intro db journal hn
    have hd := FileTree.database?_of_node hn
    cases h.contents with
    | directory there none =>
      rw [FileTree.isDirectoryAt_of_database? hd] at there
      cases there
    | database there carries =>
      cases Option.some.inj (there.symm.trans hd)
      exact carries.shows
  absent := by
    intro hn
    cases h.contents with
    | directory there none => exact none
    | database there carries =>
      by_contra hl
      obtain ⟨journal, hnode⟩ := FileTree.node?_of_database? there (carries.ne_blank hl)
      exact hn _ journal hnode
  parses := by
    intro d hd
    obtain ⟨xs, hxs⟩ := (Store.isOk_vector_iff d).mp (h.parses d hd)
    rw [Definition.resolve, hxs]
    rfl
  lookup := by
    intro i env name hi hc hstarts hopens
    obtain ⟨showsWarnings, hw⟩ := Option.isSome_iff_exists.mp hstarts
    rw [Invocation.run, hw, hi, hc]
    exact h.lookup name showsWarnings hopens
  malformed := by
    intro i env name cause hi
    rw [Invocation.run, hi]
    cases i.showsWarnings? env with
    | none => nofun
    | some showsWarnings => exact h.error_ne_malformed i.command showsWarnings name cause
  resolves := fun s hs => h.resolves hs

/-- After any runs of the program at a store that was not there before, whether they fail or not,
all that is stored has a vector: what was written by a run that succeeded, and not removed since. -/
theorem sound_runAll {path : String} {names : List String} {t : FileTree}
    (h : t.addressed? path = some names) (hn : t.node? names = none)
    (runs : List (Invocation × Environment)) (hruns : ∀ x ∈ runs, x.1.databasePath x.2 = path) :
    Sound path names (runAll runs t).1 (runAll runs t).2 :=
  (Kept.runAll h hn runs hruns).sound

theorem sound_runAll_refused :
    Sound "x.db" ["w", "x.db"]
      (runAll [(⟨some "x.db", false, .upsert ⟨"a", "c", "1"⟩⟩, {}),
        (⟨some "x.db", false, .upsert ⟨"b", "c", "one"⟩⟩, {}),
        (⟨some "x.db", false, .remove "b"⟩, {})] { workingDirectory := ["w"] }).1
      (runAll [(⟨some "x.db", false, .upsert ⟨"a", "c", "1"⟩⟩, {}),
        (⟨some "x.db", false, .upsert ⟨"b", "c", "one"⟩⟩, {}),
        (⟨some "x.db", false, .remove "b"⟩, {})] { workingDirectory := ["w"] }).2 := by
  have hplain : FileTree.IsPlain "x.db" := rfl
  have haddress : ({ workingDirectory := ["w"] } : FileTree).addressed? "x.db" =
      some ["w", "x.db"] :=
    FileTree.addressed?_of_name (by decide) (by decide) hplain (by decide) rfl
  exact sound_runAll haddress rfl _ (by simp [databasePath])

end Invocation

end Predication
