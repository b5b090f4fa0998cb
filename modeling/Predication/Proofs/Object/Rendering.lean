import Predication.Object
import Predication.Proofs.Text.Quoted

namespace Predication.Object

theorem render_text (s : String) : (Object.text s).render = Text.quote s := by
  rw [render]

/-- What stands before an item of a join is settled by the items before it and by how the item
begins. -/
theorem exists_intercalate_eq (gap opening : String) (items : List String) :
    ∃ before : String, ∀ (value : String) (later : List String), ∃ after,
      gap.intercalate (items ++ (opening ++ value) :: later) = before ++ (value ++ after) := by
  induction items with
  | nil =>
    refine ⟨opening, fun value later => ?_⟩
    rw [List.nil_append]
    cases later with
    | nil => exact ⟨"", by rw [String.intercalate_singleton, String.append_empty]⟩
    | cons item later =>
      refine ⟨gap ++ gap.intercalate (item :: later), ?_⟩
      rw [String.intercalate_cons_cons, String.append_assoc, String.append_assoc]
  | cons item items ih =>
    obtain ⟨before, hbefore⟩ := ih
    refine ⟨item ++ gap ++ before, fun value later => ?_⟩
    obtain ⟨after, hafter⟩ := hbefore value later
    refine ⟨after, ?_⟩
    rw [List.cons_append, String.intercalate_cons_of_ne_nil (by simp), hafter,
      ← String.append_assoc]

theorem renderMembers_eq_map (ms : List (String × Object)) :
    renderMembers ms = ms.map renderMember := by
  induction ms with
  | nil => rfl
  | cons m ms ih => rw [renderMembers, ih, List.map_cons]

theorem exists_render_symbol_eq (name key : String) (ms : List (String × Object)) :
    ∃ before : String, ∀ (value : Object) (later : List (String × Object)), ∃ after,
      (Object.symbol name (ms ++ (key, value) :: later)).render =
        before ++ (value.render ++ after) := by
  obtain ⟨before, hbefore⟩ := exists_intercalate_eq ", " (key ++ ": ") (renderMembers ms)
  refine ⟨name ++ " \x7b" ++ before, fun value later => ?_⟩
  obtain ⟨after, hafter⟩ := hbefore value.render (renderMembers later)
  refine ⟨after ++ "\x7d", ?_⟩
  have hmembers : renderMembers (ms ++ (key, value) :: later) =
      renderMembers ms ++ (key ++ ": " ++ value.render) :: renderMembers later := by
    simp only [renderMembers_eq_map, List.map_append, List.map_cons, renderMember]
  rw [render, withMembers, if_neg (by simp [hmembers]), hmembers, hafter]
  simp only [String.append_assoc]

theorem render_text_delimited (s t : String) :
    (∀ coded coded' : Char → Bool,
      Text.quoteWith coded s.toList <+: Text.quoteWith coded' t.toList → s = t) ∧
    ((Object.text s).render.toList <+: (Object.text t).render.toList → s = t) ∧
    (∀ before x y : String,
      before ++ (Object.text s).render ++ x = before ++ (Object.text t).render ++ y →
        s = t ∧ x = y) ∧
    ∀ (name key : String) (ms later later' : List (String × Object)) (x y : String),
      (Object.symbol name (ms ++ (key, .text s) :: later)).render ++ x =
        (Object.symbol name (ms ++ (key, .text t) :: later')).render ++ y → s = t := by
  have hquoted : ∀ coded coded' : Char → Bool,
      Text.quoteWith coded s.toList <+: Text.quoteWith coded' t.toList → s = t := by
    rintro coded coded' ⟨x, hx⟩
    rw [← List.append_nil (Text.quoteWith coded' _)] at hx
    exact String.toList_inj.mp (Text.quoteWith_append_inj hx).1
  refine ⟨hquoted, ?_, ?_, ?_⟩
  · intro h
    rw [render_text, render_text, Text.quote, Text.quote, String.toList_ofList,
      String.toList_ofList] at h
    exact hquoted _ _ h
  · intro before x y h
    rw [String.append_assoc, String.append_assoc, String.append_right_inj, render_text,
      render_text] at h
    exact Text.quote_append_inj h
  · intro name key ms later later' x y h
    obtain ⟨before, hbefore⟩ := exists_render_symbol_eq name key ms
    obtain ⟨after, hafter⟩ := hbefore (.text s) later
    obtain ⟨after', hafter'⟩ := hbefore (.text t) later'
    simp only [hafter, hafter', String.append_assoc, String.append_right_inj, render_text] at h
    exact (Text.quote_append_inj h).1

theorem render_text_delimited_brackets :
    let s := "x\", leg: \"\\\x00"
    Text.quoteWith (fun _ => false) s.toList <+: Text.quoteWith (fun c => c == 'y') s.toList ∧
      s = s ∧ "\x7d" = "\x7d" := by
  intro s
  have hquoted :
      Text.quoteWith (fun _ => false) s.toList <+: Text.quoteWith (fun c => c == 'y') s.toList := by
    decide
  obtain ⟨hs, -, hinside, -⟩ := render_text_delimited s s
  exact ⟨hquoted, hs _ _ hquoted, (hinside "david \x7bhand: " "\x7d" "\x7d" rfl).2⟩

end Predication.Object
