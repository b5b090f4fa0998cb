import Predication.Command.Execution
import Predication.Proofs.Statement.Passes
import Predication.Proofs.Statement.WireLine

namespace Predication

open Json (NoControls Blank)

def FileTree.Holds (t : FileTree) (path line : String) : Prop :=
  ∃ ending, Blank ending ∧ t.text? path = some (line ++ String.ofList ending)

structure Transcribes (output : String) (lines : List String) (ss : List Statement) : Prop where
  joined : output = String.join (lines.map (· ++ "\n"))
  newlines : output.toList.count '\n' = ss.length
  printable : ∀ line ∈ lines, NoControls line.toList
  readBack : List.Forall₂ Statement.ReadsAs lines ss

theorem Transcribes.length_eq {output : String} {lines : List String} {ss : List Statement}
    (h : Transcribes output lines ss) : lines.length = ss.length :=
  h.readBack.length_eq

theorem Json.NoControls.count_newline {cs : List Char} (h : NoControls cs) :
    cs.count '\n' = 0 := by
  rw [List.count_eq_zero]
  intro hm
  have hn := h '\n' hm
  simp at hn

theorem count_newline_join {lines : List String} (h : ∀ line ∈ lines, NoControls line.toList) :
    (String.join (lines.map (· ++ "\n"))).toList.count '\n' = lines.length := by
  induction lines with
  | nil => rfl
  | cons line lines ih =>
    obtain ⟨hline, hlines⟩ := List.forall_mem_cons.mp h
    have hend : "\n".toList.count '\n' = 1 := by decide
    rw [List.map_cons, String.join_cons, String.toList_append, List.count_append, ih hlines,
      String.toList_append, List.count_append, hline.count_newline, hend, List.length_cons]
    omega

namespace Statement

theorem length_expand_of_scalar {s : Statement} {v : String} (axis : ExpansionAxis)
    (h : s.payload = .scalar v) : (s.expand axis).length = 1 := by
  cases axis with
  | verbs => simp [expand, expandVerbs_of_scalar h]
  | attributes => simp [expand, expandAttributes_of_scalar h]

theorem length_expand_of_list {s : Statement} {items : List String} (axis : ExpansionAxis)
    (h : s.payload = .list items) : (s.expand axis).length = items.length := by
  cases axis with
  | verbs => exact length_expandVerbs h
  | attributes => exact length_expandAttributes h

theorem expandVerbs_of_mem_expandVerbs {s t : Statement} (h : t ∈ s.expandVerbs) :
    t.expandVerbs = [t] := by
  have ha : t.isComposite = false := isComposite_of_mem_expandVerbs h
  cases hp : t.payload with
  | scalar v => exact expandVerbs_of_scalar hp
  | list items => simp [isComposite, hp, Payload.isList] at ha

end Statement

theorem transcribes_expand {s : Statement} (h : s.toWire.SelfContained) (axis : ExpansionAxis) :
    Transcribes (String.join (((s.expand axis).map fun u => u.toWire.text).map (· ++ "\n")))
      ((s.expand axis).map fun u => u.toWire.text) (s.expand axis) := by
  have hlines : ∀ line ∈ (s.expand axis).map (fun u => u.toWire.text),
      NoControls line.toList := by
    intro line hline
    obtain ⟨u, -, rfl⟩ := List.mem_map.mp hline
    exact u.toWire.noControls_text
  refine ⟨rfl, ?_, hlines, ?_⟩
  · rw [count_newline_join hlines, List.length_map]
  · rw [List.forall₂_map_left_iff, List.forall₂_same]
    intro u hu
    exact Statement.readsAs_text (Statement.selfContained_of_mem_expand h hu)

namespace Command

variable {t : FileTree} {file content : String} {s : Statement} {axis : ExpansionAxis}
  {shown : Bool}

theorem runExpand_of_readsAs (ht : t.text? file = some content)
    (hs : Statement.ReadsAs content s) :
    runExpand t file axis shown = expansionReport axis shown s := by
  obtain ⟨w, hw, hv⟩ := hs
  simp only [runExpand, ht, hw, hv]

theorem runExpand_cases (t : FileTree) (file : String) (axis : ExpansionAxis) (shown : Bool) :
    (∃ content s, t.text? file = some content ∧ Statement.ReadsAs content s ∧
      runExpand t file axis shown = expansionReport axis shown s) ∨
    ((¬ ∃ content w, t.text? file = some content ∧ WireStatement.read? content = some w ∧
      w.SelfContained) ∧ ∃ e, runExpand t file axis shown = .failure e) := by
  cases ht : t.text? file with
  | none =>
    right
    exact ⟨by simp, .readFile file, by simp only [runExpand, ht]⟩
  | some content =>
    cases hw : WireStatement.read? content with
    | none =>
      right
      refine ⟨?_, .parseStatement file, by simp only [runExpand, ht, hw]⟩
      rintro ⟨content', w, ht', hw', -⟩
      cases ht'
      simp [hw] at hw'
    | some w =>
      cases hs : w.toStatement [] with
      | ok s =>
        left
        exact ⟨content, s, rfl, ⟨w, hw, hs⟩, by simp only [runExpand, ht, hw, hs]⟩
      | error e =>
        right
        refine ⟨?_, .expandStatement file e, by simp only [runExpand, ht, hw, hs]⟩
        rintro ⟨content', w', ht', hw', hself⟩
        cases ht'
        cases hw.symm.trans hw'
        obtain ⟨s, hok⟩ := WireStatement.toStatement_nil_iff.mpr hself
        simp [hs] at hok

theorem output_runExpand_of_holds (hs : s.toWire.SelfContained) (he : s.expandVerbs = [s])
    (ht : t.Holds file s.toWire.text) :
    (runExpand t file .verbs shown).exitCode = 0 ∧
      (runExpand t file .verbs shown).output = s.toWire.text ++ "\n" := by
  obtain ⟨ending, hb, htext⟩ := ht
  rw [runExpand_of_readsAs htext (Statement.readsAs_of_blank hs hb)]
  refine ⟨rfl, ?_⟩
  simp [expansionReport, Report.output, Statement.expand, he]

theorem runExpand_transcribes (t : FileTree) (file : String) (axis : ExpansionAxis)
    (shown : Bool) :
    (∀ i : Invocation, ∀ env, i.command = .expand file axis → i.showsWarnings? env = some shown →
      (i.run env t).1 = runExpand t file axis shown) ∧
    ((runExpand t file axis shown).exitCode = 0 ↔
      ∃ content w, t.text? file = some content ∧ WireStatement.read? content = some w ∧
        w.SelfContained) ∧
    ((runExpand t file axis shown).exitCode ≠ 0 → (runExpand t file axis shown).output = "") ∧
    ((runExpand t file axis shown).exitCode = 0 →
      ∃ content s lines, t.text? file = some content ∧ Statement.ReadsAs content s ∧
        Transcribes (runExpand t file axis shown).output lines (s.expand axis) ∧
        (∀ v, s.payload = .scalar v → lines.length = 1) ∧
        (∀ items, s.payload = .list items → lines.length = items.length) ∧
        (axis = .verbs → ∀ line ∈ lines, ∀ t' file' shown', FileTree.Holds t' file' line →
          (runExpand t' file' .verbs shown').exitCode = 0 ∧
          (runExpand t' file' .verbs shown').output = line ++ "\n")) := by
  refine ⟨?_, ?_⟩
  · intro i env hc hw
    simp only [Invocation.run, hw, hc, run]
  rcases runExpand_cases t file axis shown with ⟨content, s, ht, hs, hr⟩ | ⟨hnone, e, hr⟩
  · rw [hr]
    obtain ⟨w, hw, hv⟩ := hs
    have hself : s.toWire.SelfContained := Statement.selfContained_of_toStatement hv
    have htrans := transcribes_expand hself axis
    refine ⟨⟨fun _ => ?_, fun _ => rfl⟩, fun h => absurd rfl h, fun _ => ?_⟩
    · exact ⟨content, w, ht, hw, WireStatement.toStatement_nil_iff.mp ⟨s, hv⟩⟩
    refine ⟨content, s, _, ht, ⟨w, hw, hv⟩, htrans, ?_, ?_, ?_⟩
    · intro v hp
      rw [htrans.length_eq, Statement.length_expand_of_scalar axis hp]
    · intro items hp
      rw [htrans.length_eq, Statement.length_expand_of_list axis hp]
    · rintro rfl line hline t' file' shown' hholds
      obtain ⟨u, hu, rfl⟩ := List.mem_map.mp hline
      exact output_runExpand_of_holds (Statement.selfContained_of_mem_expand hself hu)
        (Statement.expandVerbs_of_mem_expandVerbs hu) hholds
  · rw [hr]
    refine ⟨⟨fun h => absurd h Nat.one_ne_zero, fun h => absurd h hnone⟩, fun _ => rfl, ?_⟩
    intro h
    exact absurd h Nat.one_ne_zero

end Command

end Predication
