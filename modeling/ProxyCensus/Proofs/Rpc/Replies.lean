import Mathlib.Tactic.ByContra
import ProxyCensus.Rpc.Verdict

/-!
# Decisive replies

Which replies decide a request, said of the reply alone: a success whose object has a result answers
it, and a success that is no object, or reports an error that will not pass, refuses it. Two more end a
request: a fault of the address or the node that no other attempt would mend, and a success whose body
nests too deep to be read. Main statements: the verdict on a reply is an answer or a failure exactly for
these, and every other reply of a node, or failure of the network, leaves a reason to ask again.
-/

namespace ProxyCensus

/-- An error object whose code says that the error may pass. -/
def Rpc.MayPass (error : Json) : Prop :=
  ∃ fields code, error = .obj fields ∧ error.getD "code" = .int code ∧
    (code = -32603 ∨ -32099 ≤ code ∧ code ≤ -32001)

namespace Delivery

/-- A response of a node, or a failure of the network. -/
inductive Plain : Delivery → Prop
  | http (status : Int) (body : Body) : Plain (.http status body)
  | network (fault : NetworkFault) : Plain (.fault (.network fault))

/-- A success whose object has a result other than null. -/
inductive Answers : Delivery → Json → Prop
  | result {fields : List (String × Json)} {v : Json} (hv : (Json.obj fields).getD "result" = v)
      (hnull : v ≠ .null) : Answers (.http 200 (.document (.obj fields))) v

/-- A success that holds no document, no object, or no result but an error that will not pass. An
empty body stands for null. -/
inductive Refuses : Delivery → Prop
  | malformed (reason : String) : Refuses (.http 200 (.malformed reason))
  | empty : Refuses (.http 200 .empty)
  | noObject {v : Json} (h : ∀ fields, v ≠ .obj fields) : Refuses (.http 200 (.document v))
  | error {fields : List (String × Json)} (hv : (Json.obj fields).getD "result" = .null)
      (he : (Json.obj fields).getD "error" ≠ .null)
      (hp : ¬ Rpc.MayPass ((Json.obj fields).getD "error")) :
      Refuses (.http 200 (.document (.obj fields)))

/-- A failure of the network for a reason that lies with the address or the node. -/
inductive Barred : Delivery → String → Prop
  | intro {fault : NetworkFault} {reason : String} (h : fault.lasting? = some reason) :
      Barred (.fault (.network fault)) reason

/-- A success whose body nests deeper than it is read. -/
inductive TooDeep : Delivery → String → Prop
  | intro (reason : String) : TooDeep (.http 200 (.tooDeep reason)) reason

/-- A reply that does not end its request. -/
structure Undecided (d : Delivery) : Prop where
  answers : ∀ v, ¬ d.Answers v
  refuses : ¬ d.Refuses
  barred : ∀ reason, ¬ d.Barred reason
  tooDeep : ∀ reason, ¬ d.TooDeep reason

/-- A reply that asks to slow down. -/
inductive Busy : Delivery → Prop
  | intro (body : Body) : Busy (.http 429 body)

end Delivery

namespace Rpc

theorem isRetriable_iff {code : Json} :
    isRetriable code = true ↔
      ∃ n, code = .int n ∧ (n = -32603 ∨ -32099 ≤ n ∧ n ≤ -32001) := by
  cases code <;> simp [isRetriable]
  omega

/-- The reason to ask again that a verdict leaves. -/
def Verdict.cause? (url : String) : Verdict → Option Failure
  | .busy => some (.request s!"HTTP 429 from {url}")
  | .status code => some (.request s!"HTTP {code} from {url}")
  | .unready reason => some (.retriable reason)
  | .broken fault => some (.network fault)
  | .answer _ | .refuse _ => none

variable {method url : String}

theorem judge_of_answers {d : Delivery} {v : Json} (h : d.Answers v) :
    judge method url d = .answer v := by
  cases h with
  | @result fields v hv hnull =>
    have hr : result fields = .ok v := by
      unfold result
      simp only [hv]
    simp [judge, judgeBody, Body.value?, hr]

/-- How a reply fails its request. What the node has sent is quoted in a refusal; of a body that nests
too deep only the reader's own failure is known. -/
inductive Fails (method url : String) (d : Delivery) : Failure → Prop
  | refused {m : String} (h : d.Refuses) (hm : judge method url d = .refuse (.request m)) :
      Fails method url d (.request m)
  | barred {reason : String} (h : d.Barred reason) :
      Fails method url d (.request s!"{method} failed at {url}: {reason}")
  | tooDeep {reason : String} (h : d.TooDeep reason) : Fails method url d (.recursion reason)

theorem judge_of_refuses {d : Delivery} (h : d.Refuses) :
    ∃ m, judge method url d = .refuse (.request m) := by
  cases h with
  | malformed reason => exact ⟨_, rfl⟩
  | empty => exact ⟨_, rfl⟩
  | @noObject v h =>
    cases v with
    | obj fields => exact absurd rfl (h fields)
    | _ => exact ⟨_, rfl⟩
  | @error fields hv he hp =>
    have hr : ∃ m, result fields = .error (.badValue m) := by
      unfold result
      simp only [hv]
      generalize (Json.obj fields).getD "error" = e at he hp
      cases e with
      | null => exact absurd rfl he
      | obj error =>
        have : isRetriable ((Json.obj error).getD "code") = false := by
          rw [Bool.eq_false_iff]
          intro hc
          obtain ⟨n, hn, hrange⟩ := isRetriable_iff.1 hc
          exact hp ⟨error, n, rfl, hn, hrange⟩
        simp only [this]
        exact ⟨_, rfl⟩
      | _ => exact ⟨_, rfl⟩
    obtain ⟨m, hr⟩ := hr
    exact ⟨_, by simp only [judge, judgeBody, Body.value?, hr]; rfl⟩

theorem judge_of_fails {d : Delivery} {f : Failure} (h : Fails method url d f) :
    judge method url d = .refuse f := by
  cases h with
  | refused h hm => exact hm
  | barred h =>
    cases h with
    | intro h => simp only [judge, judgeFailure, h]
  | tooDeep h =>
    cases h with
    | intro reason => rfl

theorem undecided_of_status {status : Int} {body : Body} (hs : status ≠ 200) :
    (Delivery.http status body).Undecided where
  answers := by
    intro v h
    cases h
    exact hs rfl
  refuses := by
    intro h
    cases h <;> exact hs rfl
  barred := by rintro reason ⟨⟩
  tooDeep := by
    intro reason h
    cases h
    exact hs rfl

theorem undecided_of_passing {fault : NetworkFault} (hlasting : fault.lasting? = none) :
    (Delivery.fault (.network fault)).Undecided where
  answers := by rintro v ⟨⟩
  refuses := by rintro ⟨⟩
  barred := by
    intro reason h
    cases h with
    | intro h => cases hlasting.symm.trans h
  tooDeep := by rintro reason ⟨⟩

theorem undecided_of_no_result {fields : List (String × Json)}
    (hnull : (Json.obj fields).getD "result" = .null)
    (he : (Json.obj fields).getD "error" = .null ∨ MayPass ((Json.obj fields).getD "error")) :
    (Delivery.http 200 (.document (.obj fields))).Undecided where
  answers := by
    intro v h
    cases h with
    | result hv hne => exact hne (hv.symm.trans hnull)
  refuses := by
    intro h
    cases h with
    | noObject h => exact h fields rfl
    | error hv hne hp => exact he.elim hne hp
  barred := by rintro reason ⟨⟩
  tooDeep := by rintro reason ⟨⟩

/-- The replies that decide nothing: another status than success, a failure of the network that may
pass, neither result nor error, and an error that may pass. -/
theorem undecided_iff {d : Delivery} (hd : d.Plain) :
    d.Undecided ↔ (∃ status body, status ≠ 200 ∧ d = .http status body) ∨
      (∃ fault : NetworkFault, fault.lasting? = none ∧ d = .fault (.network fault)) ∨
      ∃ fields, d = .http 200 (.document (.obj fields)) ∧
        (Json.obj fields).getD "result" = .null ∧
        ((Json.obj fields).getD "error" = .null ∨ MayPass ((Json.obj fields).getD "error")) := by
  constructor
  · intro h
    cases hd with
    | network fault =>
      refine .inr (.inl ⟨fault, ?_, rfl⟩)
      cases hlasting : fault.lasting? with
      | none => rfl
      | some reason => exact absurd (.intro hlasting) (h.barred reason)
    | http status body =>
      by_cases hs : status = 200
      · subst hs
        cases body with
        | empty => exact absurd .empty h.refuses
        | malformed reason => exact absurd (.malformed reason) h.refuses
        | tooDeep reason => exact absurd (.intro reason) (h.tooDeep reason)
        | document v =>
          by_cases hobj : ∃ fields, v = .obj fields
          · obtain ⟨fields, rfl⟩ := hobj
            have hnull : (Json.obj fields).getD "result" = .null := by
              by_contra hv
              exact h.answers _ (.result rfl hv)
            refine .inr (.inr ⟨fields, rfl, hnull, ?_⟩)
            by_contra he
            exact h.refuses (.error hnull (fun h => he (.inl h)) (fun h => he (.inr h)))
          · exact absurd (.noObject fun fields hv => hobj ⟨fields, hv⟩) h.refuses
      · exact .inl ⟨status, body, hs, rfl⟩
  · rintro (⟨status, body, hs, rfl⟩ | ⟨fault, hlasting, rfl⟩ | ⟨fields, rfl, hnull, he⟩)
    · exact undecided_of_status hs
    · exact undecided_of_passing hlasting
    · exact undecided_of_no_result hnull he

/-- A reply answers its request, fails it, or does neither. -/
theorem answers_or_fails_or_undecided (method url : String) (d : Delivery) :
    (∃ v, d.Answers v) ∨ (∃ f, Fails method url d f) ∨ d.Undecided := by
  by_cases ha : ∃ v, d.Answers v
  · exact .inl ha
  by_cases hr : d.Refuses
  · obtain ⟨m, hm⟩ := @judge_of_refuses method url d hr
    exact .inr (.inl ⟨_, .refused hr hm⟩)
  by_cases hb : ∃ reason, d.Barred reason
  · obtain ⟨reason, hb⟩ := hb
    exact .inr (.inl ⟨_, .barred hb⟩)
  by_cases hdeep : ∃ reason, d.TooDeep reason
  · obtain ⟨reason, hdeep⟩ := hdeep
    exact .inr (.inl ⟨_, .tooDeep hdeep⟩)
  exact .inr (.inr ⟨fun v h => ha ⟨v, h⟩, hr, fun reason h => hb ⟨reason, h⟩,
    fun reason h => hdeep ⟨reason, h⟩⟩)

/-- A reply that decides nothing leaves a reason to ask again, and the client is slowed down exactly
for one that asks for it. -/
theorem judge_of_undecided {d : Delivery} (hd : d.Plain) (h : d.Undecided) :
    (∃ f, (judge method url d).cause? url = some f) ∧
      (d.Busy ∧ judge method url d = .busy ∨ ¬ d.Busy ∧ judge method url d ≠ .busy) := by
  rcases (undecided_iff hd).1 h with
    ⟨status, body, hs, rfl⟩ | ⟨fault, hlasting, rfl⟩ | ⟨fields, rfl, hnull, he⟩
  · by_cases hb : status = 429
    · subst hb
      exact ⟨⟨.request s!"HTTP 429 from {url}", rfl⟩, .inl ⟨.intro body, rfl⟩⟩
    · have hj : judge method url (.http status body) = .status status := by
        simp [judge, hs, hb]
      rw [hj]
      refine ⟨⟨_, rfl⟩, .inr ⟨?_, by simp⟩⟩
      rintro ⟨⟩
      exact hb rfl
  · have hj : judge method url (.fault (.network fault)) = .broken fault := by
      simp only [judge, judgeFailure, hlasting]
    rw [hj]
    exact ⟨⟨_, rfl⟩, .inr ⟨by rintro ⟨⟩, by simp⟩⟩
  · have hr : ∃ m, result fields = .error (.retriable m) := by
      unfold result
      simp only [hnull]
      rcases he with he | ⟨error, code, he, hc, hrange⟩
      · simp only [he]
        exact ⟨_, rfl⟩
      · have : isRetriable ((Json.obj error).getD "code") = true :=
          isRetriable_iff.2 ⟨code, he ▸ hc, hrange⟩
        simp only [he, this, if_true]
        exact ⟨_, rfl⟩
    obtain ⟨m, hr⟩ := hr
    have hj : judge method url (.http 200 (.document (.obj fields))) = .unready m := by
      simp [judge, judgeBody, Body.value?, hr, judgeFailure]
    rw [hj]
    refine ⟨⟨_, rfl⟩, .inr ⟨?_, by simp⟩⟩
    rintro ⟨⟩

end Rpc

end ProxyCensus
