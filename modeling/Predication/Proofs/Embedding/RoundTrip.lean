import Predication.Proofs.Binary32.RoundTrip
import Predication.Proofs.Embedding.Reading

namespace Predication.Embedding

open Binary32

theorem spaced_format (xs : Embedding) :
    Text.Spaced (xs.map (text .plain)) (format xs).toList := by
  have htokens : ∀ t ∈ xs.map (fun x => String.ofList (x.text .plain)), Text.IsToken t.toList := by
    intro t ht
    obtain ⟨x, -, rfl⟩ := List.mem_map.mp ht
    rw [String.toList_ofList]
    exact isToken_text x
  have hgap : Text.Blanks " ".toList := by
    intro c hc
    rw [List.mem_singleton.mp hc]
    rfl
  have hspaced := Text.spaced_intercalate (by decide) hgap htokens
  have htexts : (xs.map fun x => String.ofList (x.text .plain)).map String.toList =
      xs.map (text .plain) := by
    simp
  rwa [htexts] at hspaced

theorem readTokens_texts (xs : Embedding) :
    readTokens (xs.map (text .plain)) = .ok (xs.map fun x => if x.isNaN then nan else x) := by
  induction xs with
  | nil => rfl
  | cons x xs ih =>
    rw [List.map_cons, readTokens_of_read? (read?_plainText x), ih]
    rfl

theorem parse_format_eq (xs : Embedding) :
    parse (format xs) = .ok (xs.map fun x => if x.isNaN then nan else x) := by
  rw [parse_of_spaced (spaced_format xs), readTokens_texts]

theorem parse_format :
    (∀ xs : Embedding, ∃ ys, parse (format xs) = .ok ys ∧ ys.length = xs.length ∧
      ∀ (i : Nat) (x y : Binary32), xs[i]? = some x → ys[i]? = some y →
        if x.isNaN then y.isNaN = true else y.bits = x.bits) ∧
    (∀ (x : Binary32), ∀ c ∈ x.text .plain, c ≠ 'e' ∧ c ≠ 'E') ∧
    (∀ x : Binary32, 0 < x.magnitude → x.magnitude < infinityMagnitude →
      ∃ ds e, x.text .plain =
          (if x.negative then '-' :: positional false ds e else positional false ds e) ∧
        (∀ c ∈ ds, Text.isDigit c = true) ∧
        ∀ t n, Numeral.read? t = some n → read? (if x.negative then '-' :: t else t) = some x →
          ds.length ≤ (Nat.toDigits 10 n.digits).length) ∧
    (∀ t n, Numeral.read? t = some n → ∃ m, IsNearest n.value m ∧ ∀ neg : Bool,
      read? (if neg then '-' :: t else t) = some (ofMagnitude neg (min infinityMagnitude m))) := by
  refine ⟨?_, ?_, fun x => text_shortest, fun t n => read?_isNearest⟩
  · intro xs
    refine ⟨_, parse_format_eq xs, List.length_map _, ?_⟩
    intro i x y hx hy
    rw [List.getElem?_map, hx] at hy
    cases hy
    cases hnan : x.isNaN with
    | true => simp [hnan, isNaN_nan]
    | false => simp [hnan]
  · intro x c hc
    rcases mem_text hc with hdigit | hmem
    · constructor <;> rintro rfl <;> revert hdigit <;> decide
    · constructor <;> rintro rfl <;> revert hmem <;> decide

example : format [⟨0x80000000⟩, ⟨1⟩, ⟨0x7fc00001⟩, ⟨0x4b800001⟩] =
    "-0 0.000000000000000000000000000000000000000000001 NaN 16777218" := by
  decide +kernel

end Predication.Embedding
