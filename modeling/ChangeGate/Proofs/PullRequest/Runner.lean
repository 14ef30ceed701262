import ChangeGate.Proofs.Host.Session
import ChangeGate.PullRequest.Runner

/-! # Finding the pull request of a run

**Runner.Resolves** says which pull request a machine and the variables of a workflow describe: the event
is about one, the payload is there and holds its number, and owner, repository and token are known.
**Runner.Refuses** says when the payload is refused, which owner, repository and token have no part in. The
program finds exactly that pull request and fails exactly for that reason (**`pullRequest_apply`**), and
looking for it changes nothing but standard error. -/

namespace ChangeGate.PullRequest

/-! ## (1) The parts of a pull request -/

/-- A value that is not blank is the value itself. -/
theorem nonBlank_eq_some {v : Option Text} {t : Text} :
    nonBlank v = some t ↔ v = some t ∧ Text.blank t = false := by
  rw [nonBlank, Option.filter_eq_some_iff, Bool.not_eq_true']

/-- The number in a payload counts if it is above zero. -/
theorem payloadNumber_eq_some {content : Text} {number : Nat} :
    payloadNumber content = .ok (some number) ↔
      readPayload content = .ok (some number) ∧ 0 < number := by
  rw [payloadNumber]
  cases readPayload content with
  | error f => simp [Except.map]
  | ok found => simp [Except.map, Option.filter_eq_some_iff]

/-- A payload has no number for the same reasons for which it cannot be read. -/
theorem payloadNumber_eq_error {content : Text} {f : Json.Fault} :
    payloadNumber content = .error f ↔ readPayload content = .error f := by
  rw [payloadNumber]
  cases readPayload content <;> simp [Except.map]

namespace Runner

/-- Owner and repository are the first two parts of a name. -/
theorem ownerAndRepository_eq_iff {name owner repository : Text} (howner : owner ≠ [])
    (hrepository : repository ≠ []) :
    ownerAndRepository name = (owner, repository) ↔
      ∃ rest, Text.pieces '/' name = owner :: repository :: rest := by
  unfold ownerAndRepository
  generalize Text.pieces '/' name = parts
  constructor
  · intro h
    obtain ⟨hfirst, hsecond⟩ := Prod.mk.inj h
    rcases parts with _ | ⟨first, _ | ⟨second, rest⟩⟩
    · exact absurd hfirst.symm howner
    · exact absurd hsecond.symm hrepository
    · obtain rfl : first = owner := hfirst
      obtain rfl : second = repository := hsecond
      exact ⟨rest, rfl⟩
  · rintro ⟨rest, rfl⟩
    rfl

/-- **A pull request that is identified** has the number, the token of the runner, and an owner and a
repository with a name. -/
theorem identified?_eq_some {r : Runner} {number : Nat} {p : PullRequest} :
    r.identified? number = some p ↔
      p.number = number ∧ r.token = some p.token ∧ p.owner ≠ [] ∧ p.repository ≠ [] ∧
        ownerAndRepository (r.repository.getD []) = (p.owner, p.repository) := by
  unfold identified?
  generalize ownerAndRepository (r.repository.getD []) = parts
  obtain ⟨owner, repository⟩ := parts
  cases r.token with
  | none => simp
  | some token =>
    dsimp only
    constructor
    · intro h
      split at h
      · exact absurd h (by simp)
      · rename_i hparts
        obtain rfl := Option.some.inj h
        obtain ⟨howner, hrepository⟩ := not_or.mp hparts
        exact ⟨rfl, rfl, howner, hrepository, rfl⟩
    · rintro ⟨hnumber, htoken, howner, hrepository, hparts⟩
      obtain rfl := Option.some.inj htoken
      obtain ⟨rfl, rfl⟩ := Prod.mk.inj hparts
      rw [if_neg (not_or.mpr ⟨howner, hrepository⟩), ← hnumber]

/-! ## (2) The outcome -/

/-- **The pull request behind the event of a runner**: the event is about one, a text stands at the
path of the payload and holds a number other than zero, and owner, repository and token are known. -/
def Resolves (r : Runner) (w : Machine) (p : PullRequest) : Prop :=
  r.hasPullRequestEvent = true ∧
  ∃ path content number, r.payload = some path ∧ w.tree.occupied w.cwd path = true ∧
    w.tree.readText w.cwd path = .ok content ∧ payloadNumber content = .ok (some number) ∧
    r.identified? number = some p

/-- There is one pull request behind an event. -/
theorem Resolves.unique {r : Runner} {w : Machine} {p p' : PullRequest} (h : r.Resolves w p)
    (h' : r.Resolves w p') : p = p' := by
  obtain ⟨-, path, content, number, hpath, -, hcontent, hnumber, hfound⟩ := h
  obtain ⟨-, path', content', number', hpath', -, hcontent', hnumber', hfound'⟩ := h'
  obtain rfl := Option.some.inj (hpath.symm.trans hpath')
  obtain rfl := Except.ok.inj (hcontent.symm.trans hcontent')
  obtain rfl := Option.some.inj (Except.ok.inj (hnumber.symm.trans hnumber'))
  exact Option.some.inj (hfound.symm.trans hfound')

/-- **Why the payload of an event is refused**: the event is about a pull request and there is a payload,
but it is no text that can be read, or it is malformed. -/
def Refuses (r : Runner) (w : Machine) (f : Fault) : Prop :=
  r.hasPullRequestEvent = true ∧
  ∃ path, r.payload = some path ∧ w.tree.occupied w.cwd path = true ∧
    ((∃ cause, w.tree.readText w.cwd path = .error cause ∧ f = .payloadUnreadable path cause) ∨
      ∃ content fault, w.tree.readText w.cwd path = .ok content ∧
        payloadNumber content = .error fault ∧ f = .payloadMalformed path content fault)

variable (r : Runner) (w : Machine)

/-- Looking up variables in a row. -/
theorem mapM_lookup_apply (names : List Text) :
    (names.mapM Host.lookup : Session _) w = (names.map w.valueOf, w) := by
  induction names with
  | nil => rfl
  | cons name names ih =>
    rw [List.mapM_cons, Session.bind_apply, Host.lookup_apply, Session.bind_apply, ih]
    rfl

/-- Only what is not blank is told. -/
theorem ofVariables_congr {lookup lookup' : Text → Option Text}
    (h : ∀ name, nonBlank (lookup name) = nonBlank (lookup' name)) :
    ofVariables lookup = ofVariables lookup' := by
  simp only [ofVariables, h]

/-- What the environment of a machine tells. -/
theorem ofHost_apply : (ofHost : Session Runner) w = (ofVariables w.valueOf, w) := by
  have htokens : (tokenVariables.map w.valueOf).findSome? nonBlank =
      tokenVariables.findSome? fun name => nonBlank (w.valueOf name) := List.findSome?_map ..
  simp only [ofHost, ofVariables, Session.bind_apply, Host.lookup_apply, mapM_lookup_apply,
    Session.pure_apply, htokens]

/-- The payload of an event describes a pull request when it has a number and all else is known. -/
theorem ofPayload_eq_ok {path content : Text} {p : PullRequest} :
    r.ofPayload path content = .ok (.ok p) ↔
      ∃ number, payloadNumber content = .ok (some number) ∧ r.identified? number = some p := by
  unfold ofPayload
  cases payloadNumber content with
  | error f => simp
  | ok found =>
    cases found with
    | none => simp
    | some number => cases hp : r.identified? number <;> simp [hp]

/-- A payload is refused when it is malformed. -/
theorem ofPayload_eq_error {path content : Text} {f : Fault} :
    r.ofPayload path content = .error f ↔
      ∃ fault, payloadNumber content = .error fault ∧ f = .payloadMalformed path content fault := by
  unfold ofPayload
  cases payloadNumber content with
  | error fault => simp [eq_comm]
  | ok found => cases found <;> simp

/-- Resolving changes nothing, finds the pull request behind the event, and fails when the payload is
refused. -/
theorem resolve_apply :
    ∃ result, (r.resolve : Session _) w = (result, w) ∧
      (∀ p, result = .ok (.ok p) ↔ r.Resolves w p) ∧ ∀ f, result = .error f ↔ r.Refuses w f := by
  unfold resolve Resolves Refuses
  -- the first thing that is not told ends it
  cases hevent : r.hasPullRequestEvent with
  | false => exact ⟨.ok (.error (.otherEvent r.event)), rfl, by simp, by simp⟩
  | true =>
    cases hpayload : r.payload with
    | none => exact ⟨.ok (.error .noPayload), rfl, by simp, by simp⟩
    | some path =>
      cases hoccupied : w.tree.occupied w.cwd path with
      | false =>
        refine ⟨.ok (.error .noPayload), ?_, by simp [hoccupied], by simp [hoccupied]⟩
        simp [hoccupied]
      | true =>
        cases htext : w.tree.readText w.cwd path with
        | error e =>
          refine ⟨.error (.payloadUnreadable path e), ?_, by simp [htext], ?_⟩
          · simp [hoccupied, htext]
          · intro f
            simpa [hoccupied, htext] using eq_comm
        | ok content =>
          refine ⟨r.ofPayload path content, ?_, ?_, ?_⟩
          · simp [hoccupied, htext]
          · intro p
            rw [ofPayload_eq_ok]
            simp [hoccupied, htext]
          · intro f
            rw [ofPayload_eq_error]
            simp [hoccupied, htext]

/-- **The program finds the pull request behind the event** and fails when the payload is refused; looking
for it changes nothing but standard error. -/
theorem pullRequest_apply :
    ∃ errors result, (r.pullRequest : Session _) w = (result, { w with errors := errors }) ∧
      (∀ p, result = .ok (some p) ↔ r.Resolves w p) ∧ ∀ f, result = .error f ↔ r.Refuses w f := by
  obtain ⟨found, hresolve, hfound, hrefused⟩ := resolve_apply r w
  rw [pullRequest, Session.bind_apply, hresolve]
  dsimp only
  cases found with
  | error f => exact ⟨w.errors, .error f, rfl, by simp [← hfound], by simp [← hrefused]⟩
  | ok result =>
    cases result with
    | ok p => exact ⟨w.errors, .ok (some p), rfl, by simp [← hfound], by simp [← hrefused]⟩
    | error a =>
      obtain ⟨errors, hlog⟩ := Host.log_apply w (.debug .github a.message)
      refine ⟨errors, .ok none, ?_, by simp [← hfound], by simp [← hrefused]⟩
      simp only [Session.bind_apply, hlog, Session.pure_apply]

end Runner

end ChangeGate.PullRequest
