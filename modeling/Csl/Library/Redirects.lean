import Mathlib.Tactic.Common

/-! Following redirects from place to place until a page is shown.

What is answered may depend on the number of the request.
-/

set_option autoImplicit false

namespace Redirects
variable {Place Page : Type}

inductive Step (Place Page : Type) where
  | redirect (location : Place)
  | page (shown : Page)
  deriving DecidableEq

/-- Asked for with some request, a place leads to a page that is shown with a later one. -/
inductive Leads (answer : Nat → Place → Step Place Page) : Nat → Place → Nat → Page → Prop
  | page {number : Nat} {place : Place} {shown : Page} :
      answer number place = .page shown → Leads answer number place number shown
  | redirect {number last : Nat} {place location : Place} {shown : Page} :
      answer number place = .redirect location → Leads answer (number + 1) location last shown →
      Leads answer number place last shown

variable {answer : Nat → Place → Step Place Page}

theorem Leads.next {number last : Nat} {place location : Place} {shown : Page}
    (leads : Leads answer number place last shown) (redirected : answer number place = .redirect location) :
    Leads answer (number + 1) location last shown := by
  cases leads with
  | page answered =>
    rw [answered] at redirected
    cases redirected
  | redirect answered rest =>
    rw [answered] at redirected
    cases redirected
    exact rest

/-- Redirects do not end where each leads to a place of which the same is true. -/
theorem not_leads (caught : Nat → Place → Prop)
    (turns : ∀ number place, caught number place →
      ∃ location, answer number place = .redirect location ∧ caught (number + 1) location)
    {number last : Nat} {place : Place} {shown : Page} (start : caught number place) :
    ¬Leads answer number place last shown := by
  intro leads
  induction leads with
  | page answered =>
    obtain ⟨location, redirected, _⟩ := turns _ _ start
    rw [answered] at redirected
    cases redirected
  | redirect answered _ ih =>
    obtain ⟨location, redirected, next⟩ := turns _ _ start
    obtain rfl : _ = location := Step.redirect.inj (answered.symm.trans redirected)
    exact ih next

end Redirects
