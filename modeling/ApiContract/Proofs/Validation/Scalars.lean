import ApiContract.Validation.Scalar
import ApiContract.Proofs.Report

/-!
How the rules of texts and numbers accept a value.

Each rule is restated by the conditions under which it gives a result.
-/

namespace ApiContract

theorem Reason.unlessHolds_eq_none_iff {holds : Bool} {reason : Reason} :
    unlessHolds holds reason = none ↔ holds = true := by
  simp [unlessHolds]

theorem StringRule.violation?_eq_none_iff {rule : StringRule} {s : String} :
    rule.violation? s = none ↔
      (∀ n, rule.minLength = some n → n ≤ s.length) ∧
        (∀ n, rule.maxLength = some n → s.length ≤ n) ∧
        (∀ texts, rule.allowed = some texts → s ∈ texts) ∧
        ∀ p, rule.pattern = some p → p.isMatch s = true := by
  simp [violation?, Reason.unlessHolds_eq_none_iff]

theorem NumberRule.violation?_eq_none_iff {rule : NumberRule} {x : Binary64} :
    rule.violation? x = none ↔
      (∀ m, rule.minimum = some m → x.less m = false) ∧
        (∀ m, rule.maximum = some m → m.less x = false) ∧
        ∀ xs, rule.allowed = some xs → ∃ y ∈ xs, x.equals y = true := by
  simp [violation?, Reason.unlessHolds_eq_none_iff]

/-- What a text rule accepts, and what it makes of it. -/
inductive StringRule.Reads (rule : StringRule) : Value → Value → Prop
  | date {t} : rule.isDate = true → Reads rule (.date t) (.date t)
  | binary {bytes} : rule.isBinary = true → Reads rule (.binary bytes) (.binary bytes)
  | instant {s t} : rule.violation? s = none → rule.isDate = true →
      Calendar.Instant.ofText? s = some t → Reads rule (.string s) (.date t)
  | text {s} : rule.violation? s = none → rule.isDate = false →
      Reads rule (.string s) (.string s)

theorem StringRule.coerce_eq_ok_iff {rule : StringRule} {v w : Value} :
    rule.coerce v = .ok w ↔ rule.Reads v w := by
  constructor
  · intro accepted
    cases v with
    | string s =>
      cases violation : rule.violation? s with
      | some reason => simp [coerce, violation] at accepted
      | none =>
        cases isDate : rule.isDate with
        | false =>
          obtain rfl : .string s = w := by simpa [coerce, violation, isDate] using accepted
          exact .text violation isDate
        | true =>
          cases read : Calendar.Instant.ofText? s with
          | none => simp [coerce, violation, isDate, read] at accepted
          | some t =>
            obtain rfl : .date t = w := by simpa [coerce, violation, isDate, read] using accepted
            exact .instant violation isDate read
    | date t =>
      cases isDate : rule.isDate with
      | false => simp [coerce, isDate] at accepted
      | true =>
        obtain rfl : .date t = w := by simpa [coerce, isDate] using accepted
        exact .date isDate
    | binary bytes =>
      cases isBinary : rule.isBinary with
      | false => simp [coerce, isBinary] at accepted
      | true =>
        obtain rfl : .binary bytes = w := by simpa [coerce, isBinary] using accepted
        exact .binary isBinary
    | _ => simp [coerce] at accepted
  · intro reads
    cases reads with
    | date isDate => simp [coerce, isDate]
    | binary isBinary => simp [coerce, isBinary]
    | instant violation isDate read => simp [coerce, violation, isDate, read]
    | text violation isDate => simp [coerce, violation, isDate]

theorem NumberRule.coerce_eq_ok_iff {rule : NumberRule} {readsText : Bool} {v : Value}
    {x : Binary64} :
    rule.coerce readsText v = .ok x ↔
      read? readsText v = some x ∧ x.isFinite = true ∧
        (rule.integer = true → x.isWhole = true) ∧ rule.violation? x = none := by
  constructor
  · intro accepted
    unfold coerce at accepted
    cases read : read? readsText v with
    | none => simp [read] at accepted
    | some y =>
      simp only [read] at accepted
      split at accepted
      · simp at accepted
      next fits =>
        split at accepted
        · simp at accepted
        next passes =>
          obtain rfl : y = x := Except.ok.inj accepted
          simp only [Bool.or_eq_true, Bool.and_eq_true, Bool.not_eq_true', not_or, not_and,
            Bool.not_eq_false] at fits
          exact ⟨rfl, fits.1, fits.2, passes⟩
  · rintro ⟨read, finite, whole, passes⟩
    unfold coerce
    have fits : ¬(!x.isFinite || rule.integer && !x.isWhole) = true := by
      simpa [finite] using whole
    simp only [read, if_neg fits, passes]

end ApiContract
