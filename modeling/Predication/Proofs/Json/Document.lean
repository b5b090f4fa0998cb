import Predication.Proofs.Json.Value

namespace Predication.Json

section Sound

variable {n : Nat}

theorem exists_blank (cs : List Char) : ∃ a, cs = a ++ skipBlank cs ∧ Blank a := by
  refine ⟨cs.takeWhile isBlank, ?_, ?_⟩
  · rw [skipBlank, List.takeWhile_append_dropWhile]
  · intro c hc
    exact isBlank_iff.mp (List.all_eq_true.mp List.all_takeWhile c hc)

theorem exists_blank_of_skipBlank {cs rest : List Char} (h : skipBlank cs = rest) :
    ∃ a, cs = a ++ rest ∧ Blank a := by
  rw [← h]
  exact exists_blank cs

def ReadsValues (n : Nat) : Prop :=
  ∀ cs v rest, readValue n cs = some (v, rest) →
    ∃ a ds, cs = a ++ (ds ++ rest) ∧ Blank a ∧ Value ds v

def ReadsItems (n : Nat) : Prop :=
  ∀ cs vs rest, readItems n cs = some (vs, rest) →
    ∃ ds, cs = ds ++ ']' :: rest ∧ Separated (Padded Value) ds vs

def ReadsMembers (n : Nat) : Prop :=
  ∀ cs ms rest, readMembers n cs = some (ms, rest) →
    ∃ ds, cs = ds ++ '\x7d' :: rest ∧ Separated (Member Value) ds ms

theorem cons_append_closed (c d : Char) (body rest : List Char) :
    c :: (body ++ d :: rest) = c :: (body ++ [d]) ++ rest := by
  simp

theorem value_of_skipBlank (hi : ReadsItems n) (hm : ReadsMembers n) {cs rest : List Char}
    {v : Json} (h : readValue (n + 1) cs = some (v, rest)) :
    ∃ ds, skipBlank cs = ds ++ rest ∧ Value ds v := by
  rw [readValue] at h
  split at h
  case h_1 r hs =>
    obtain ⟨⟨t, after⟩, ht, he⟩ := Option.map_eq_some_iff.mp h
    cases he
    obtain ⟨body, rfl, hq⟩ := quoted_of_readText ht
    exact ⟨_, hs.trans (cons_append_closed _ _ _ _), .text hq⟩
  case h_2 r hs =>
    split at h
    · next after hclose =>
      cases h
      obtain ⟨a, rfl, ha⟩ := exists_blank_of_skipBlank hclose
      exact ⟨_, hs.trans (cons_append_closed _ _ _ _), .noItems ha⟩
    · obtain ⟨⟨vs, after⟩, hvs, he⟩ := Option.map_eq_some_iff.mp h
      cases he
      obtain ⟨ds, rfl, hsep⟩ := hi _ _ _ hvs
      exact ⟨_, hs.trans (cons_append_closed _ _ _ _), .items hsep⟩
  case h_3 r hs =>
    split at h
    · next after hclose =>
      cases h
      obtain ⟨a, rfl, ha⟩ := exists_blank_of_skipBlank hclose
      exact ⟨_, hs.trans (cons_append_closed _ _ _ _), .noMembers ha⟩
    · obtain ⟨⟨ms, after⟩, hms, he⟩ := Option.map_eq_some_iff.mp h
      cases he
      obtain ⟨ds, rfl, hsep⟩ := hm _ _ _ hms
      exact ⟨_, hs.trans (cons_append_closed _ _ _ _), .members hsep⟩
  case h_4 r hs =>
    cases h
    exact ⟨_, hs, .null⟩
  case h_5 r hs =>
    cases h
    exact ⟨_, hs, .truth⟩
  case h_6 r hs =>
    cases h
    exact ⟨_, hs, .falsehood⟩
  case h_7 =>
    obtain ⟨ds, value, hd, rfl, hn⟩ := number_of_readNumber h
    exact ⟨ds, hd, .number hn⟩

theorem readsValues_succ (hi : ReadsItems n) (hm : ReadsMembers n) : ReadsValues (n + 1) := by
  intro cs v rest h
  obtain ⟨a, hcs, ha⟩ := exists_blank cs
  obtain ⟨ds, hds, hv⟩ := value_of_skipBlank hi hm h
  rw [hds] at hcs
  exact ⟨a, ds, hcs, ha, hv⟩

theorem padded_of_readValue (hv : ReadsValues n) {cs rest mid : List Char} {v : Json}
    (h : readValue n cs = some (v, mid)) (hmid : skipBlank mid = rest) :
    ∃ ds, cs = ds ++ rest ∧ Padded Value ds v := by
  obtain ⟨a, ds, rfl, ha, hds⟩ := hv _ _ _ h
  obtain ⟨b, rfl, hb⟩ := exists_blank_of_skipBlank hmid
  refine ⟨a ++ (ds ++ b), ?_, .mk ha hds hb⟩
  rw [List.append_assoc, List.append_assoc]

theorem readsItems_succ (hv : ReadsValues n) (hi : ReadsItems n) : ReadsItems (n + 1) := by
  intro cs vs rest h
  rw [readItems] at h
  split at h
  · cases h
  · next v mid hread =>
    split at h
    · next after hmid =>
      cases h
      obtain ⟨ds, rfl, hd⟩ := padded_of_readValue hv hread hmid
      exact ⟨ds, rfl, .last hd⟩
    · next after hmid =>
      obtain ⟨⟨ws, after'⟩, hws, he⟩ := Option.map_eq_some_iff.mp h
      cases he
      obtain ⟨ds, rfl, hd⟩ := padded_of_readValue hv hread hmid
      obtain ⟨es, rfl, hsep⟩ := hi _ _ _ hws
      refine ⟨ds ++ ',' :: es, ?_, .more hd hsep⟩
      rw [List.append_assoc, List.cons_append]
    · cases h

theorem member_of_read (hv : ReadsValues n) {cs r r' mid mid' rest : List Char}
    {key : Option String} {v : Json} (hs : skipBlank cs = '"' :: r)
    (hkey : readText r = some (key, mid)) (hcolon : skipBlank mid = ':' :: r')
    (hread : readValue n r' = some (v, mid')) (hmid : skipBlank mid' = rest) :
    ∃ ds, cs = ds ++ rest ∧ Member Value ds (key, v) := by
  obtain ⟨a, rfl, ha⟩ := exists_blank_of_skipBlank hs
  obtain ⟨body, rfl, hq⟩ := quoted_of_readText hkey
  obtain ⟨b, rfl, hb⟩ := exists_blank_of_skipBlank hcolon
  obtain ⟨ds, rfl, hd⟩ := padded_of_readValue hv hread hmid
  refine ⟨a ++ (('"' :: (body ++ ['"'])) ++ b) ++ ':' :: ds, ?_, .mk (.mk ha hq hb) hd⟩
  simp only [List.cons_append, List.append_assoc, List.nil_append]

theorem readsMembers_succ (hv : ReadsValues n) (hm : ReadsMembers n) : ReadsMembers (n + 1) := by
  intro cs ms rest h
  rw [readMembers] at h
  split at h
  case h_2 => cases h
  case h_1 r hs =>
    split at h
    · cases h
    · next key mid hkey =>
      split at h
      case h_2 => cases h
      case h_1 r' hcolon =>
        split at h
        · cases h
        · next v mid' hread =>
          split at h
          · next after hmid =>
            cases h
            obtain ⟨ds, rfl, hd⟩ := member_of_read hv hs hkey hcolon hread hmid
            exact ⟨ds, rfl, .last hd⟩
          · next after hmid =>
            obtain ⟨⟨ns, after'⟩, hns, he⟩ := Option.map_eq_some_iff.mp h
            cases he
            obtain ⟨ds, rfl, hd⟩ := member_of_read hv hs hkey hcolon hread hmid
            obtain ⟨es, rfl, hsep⟩ := hm _ _ _ hns
            refine ⟨ds ++ ',' :: es, ?_, .more hd hsep⟩
            rw [List.append_assoc, List.cons_append]
          · cases h

theorem reads (n : Nat) : ReadsValues n ∧ ReadsItems n ∧ ReadsMembers n := by
  induction n with
  | zero =>
    refine ⟨?_, ?_, ?_⟩
    · intro cs v rest h
      rw [readValue_zero] at h
      cases h
    · intro cs vs rest h
      rw [readItems_zero] at h
      cases h
    · intro cs ms rest h
      rw [readMembers_zero] at h
      cases h
  | succ n ih =>
    obtain ⟨hv, hi, hm⟩ := ih
    exact ⟨readsValues_succ hi hm, readsItems_succ hv hi, readsMembers_succ hv hm⟩

end Sound

theorem document_of_read? {s : String} {v : Json} (h : read? s = some v) : Document s v := by
  rw [read?] at h
  split at h
  · next w rest hread =>
    split at h
    · next hall =>
      cases h
      obtain ⟨a, ds, hs, ha, hv⟩ := (reads _).1 _ _ _ hread
      have hb : Blank rest := fun c hc => isBlank_iff.mp (List.all_eq_true.mp hall c hc)
      rw [Document, hs]
      exact .mk ha hv hb
    · cases h
  · cases h

theorem Padded.imp {α : Type} {P Q : List Char → α → Prop} (hpq : ∀ {cs x}, P cs x → Q cs x)
    {cs : List Char} {x : α} (h : Padded P cs x) : Padded Q cs x := by
  cases h with
  | mk ha h hb => exact .mk ha (hpq h) hb

theorem read?_of_document {s : String} {v : Json} (h : Document s v) : read? s = some v :=
  read?_of_padded (h.imp spells_value)

theorem read?_eq_some_iff {s : String} {v : Json} : read? s = some v ↔ Document s v :=
  ⟨document_of_read?, read?_of_document⟩

end Predication.Json
