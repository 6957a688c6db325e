import Mathlib.Data.String.Basic
import Punaro.Relay.Authenticator

/-!
# One machine for an endpoint

The enrollments are compared two at a time and by their finitely many rules, and what
follows is about every endpoint: two beginnings of one text are comparable, so two
machines that both own a text have rules that already meet.
-/

namespace Punaro

open Outcome

variable {left right : Machine} {endpoint : List UInt8}

theorem hasPrefix_iff {s start : List UInt8} : hasPrefix s start = true ↔ start <+: s := List.isPrefixOf_iff_prefix

theorem machineOwnsEndpoint_iff {machine : Machine} : machineOwnsEndpoint machine endpoint = true ↔
    (∃ exact ∈ machine.endpoints, endpoint = textBytes exact) ∨
      ∃ start ∈ machine.endpointPrefixes, textBytes start <+: endpoint := by
  simp only [machineOwnsEndpoint, Bool.or_eq_true, List.any_eq_true, beq_iff_eq, hasPrefix_iff]

/-- What the comparison of two machines has established. -/
structure Apart (left right : Machine) : Prop where
  starts : ∀ l ∈ left.endpointPrefixes, ∀ r ∈ right.endpointPrefixes,
    ¬textBytes r <+: textBytes l ∧ ¬textBytes l <+: textBytes r
  leftExact : ∀ exact ∈ left.endpoints, ¬machineOwnsEndpoint right (textBytes exact) = true
  rightExact : ∀ exact ∈ right.endpoints, ¬machineOwnsEndpoint left (textBytes exact) = true

theorem apart_of_checkDisjoint (h : checkDisjoint left right = .ok ()) : Apart left right := by
  simp only [checkDisjoint, bind_eq_ok] at h
  obtain ⟨_, hstarts, _, hleft, hright⟩ := h
  refine ⟨fun l hl r hr => ?_, fun exact hexact => ?_, fun exact hexact => ?_⟩
  · have hpair := forM_eq_ok.1 (forM_eq_ok.1 hstarts l hl) r hr
    simpa only [require_eq_ok, hasPrefix_iff, not_or] using hpair
  · exact require_eq_ok.1 (forM_eq_ok.1 hleft exact hexact)
  · exact require_eq_ok.1 (forM_eq_ok.1 hright exact hexact)

/-- No text at all is owned by both. -/
theorem Apart.owner (h : Apart left right) (hleft : machineOwnsEndpoint left endpoint = true) :
    ¬machineOwnsEndpoint right endpoint = true := by
  intro hright
  rcases machineOwnsEndpoint_iff.1 hleft with ⟨exact, hexact, rfl⟩ | ⟨l, hl, hle⟩
  · exact h.leftExact exact hexact hright
  · rcases machineOwnsEndpoint_iff.1 hright with ⟨exact, hexact, rfl⟩ | ⟨r, hr, hre⟩
    · exact h.rightExact exact hexact hleft
    · -- Of two beginnings of one text, the shorter one begins the longer.
      obtain ⟨hrl, hlr⟩ := h.starts l hl r hr
      rcases List.prefix_or_prefix_of_prefix hle hre with hpre | hpre
      · exact hlr hpre
      · exact hrl hpre

theorem newAuthenticator_apart {machines : List Machine} {a : Authenticator} (h : newAuthenticator machines = .ok a)
    (hleft : left ∈ a.machines) (hright : right ∈ a.machines) (hlt : left.id < right.id) : Apart left right := by
  simp only [newAuthenticator, ok_rules] at h
  obtain ⟨configured, -, _, hpairs, rfl⟩ := h
  have hpair := forM_eq_ok.1 (forM_eq_ok.1 hpairs left hleft) right hright
  rw [if_pos hlt] at hpair
  exact apart_of_checkDisjoint hpair

theorem Authenticator.allowsEndpoint_owner {a : Authenticator} {id : String} (h : a.allowsEndpoint id endpoint = true) :
    ∃ machine ∈ a.machines, machine.id = id ∧ machineOwnsEndpoint machine endpoint = true := by
  unfold Authenticator.allowsEndpoint at h
  obtain ⟨machine, hfind, howns⟩ := (Option.any_eq_true _ _).1 h
  have hid := List.find?_some hfind
  exact ⟨machine, List.mem_of_find?_eq_some hfind, beq_iff_eq.1 hid, howns⟩

/-- **One machine for an endpoint.** Under enrollments that were accepted, whatever is asked for is
allowed to one machine at most. -/
theorem allowsEndpoint_unique (machines : List Machine) (a : Authenticator) (haccepted : newAuthenticator machines = .ok a)
    (m₁ m₂ : String) (e : List UInt8) (h₁ : a.allowsEndpoint m₁ e = true) (h₂ : a.allowsEndpoint m₂ e = true) :
    m₁ = m₂ := by
  obtain ⟨machine₁, hmem₁, rfl, howns₁⟩ := Authenticator.allowsEndpoint_owner h₁
  obtain ⟨machine₂, hmem₂, rfl, howns₂⟩ := Authenticator.allowsEndpoint_owner h₂
  -- The pair is compared once, in the order of the ids.
  rcases lt_trichotomy machine₁.id machine₂.id with hlt | heq | hlt
  · exact absurd howns₂ ((newAuthenticator_apart haccepted hmem₁ hmem₂ hlt).owner howns₁)
  · exact heq
  · exact absurd howns₁ ((newAuthenticator_apart haccepted hmem₂ hmem₁ hlt).owner howns₂)

/-- Two machines, one with a namespace and the other with an endpoint of its own. -/
def enrolledPair : List Machine :=
  [⟨"a", List.replicate 32 0, 0, ["agent/a/"], []⟩, ⟨"b", List.replicate 32 1, 0, [], ["agent/b"]⟩]

theorem allowsEndpoint_unique_pair : newAuthenticator enrolledPair = .ok ⟨enrolledPair⟩ ∧
    (⟨enrolledPair⟩ : Authenticator).allowsEndpoint "a" (textBytes "agent/a/x") = true ∧
    ∀ m, (⟨enrolledPair⟩ : Authenticator).allowsEndpoint m (textBytes "agent/a/x") = true → "a" = m :=
  ⟨by decide +kernel, by decide +kernel, fun m h => allowsEndpoint_unique enrolledPair ⟨enrolledPair⟩
    (by decide +kernel) "a" m (textBytes "agent/a/x") (by decide +kernel) h⟩

end Punaro
