import ProxyCensus.Analysis
import ProxyCensus.Proofs.Leads
import ProxyCensus.Proofs.Resolution.Inquiry

/-!
# Where an analysis leads

An analysis asks questions and writes messages, and does nothing else with the client. Main statement: it
leads to whatever these two lead to.
-/

namespace ProxyCensus

open Act (Leads)

variable {α β : Type} {R : Line α → Line α → Prop} [Std.Refl R] [IsTrans (Line α) R]

section

variable [Seconds α] {out : Outside α} (hask : ∀ request, Leads R (Line.ask out request))

include hask

theorem Inquiry.leads_run (x : Inquiry β) : Leads R (x.run out) := by
  induction x with
  | done result => exact .lift result
  | ask request next ih => exact .bind (hask request) ih

variable (hlog : ∀ level logger message, Leads R (Line.writing (Journal.log level logger message)))

include hlog

theorem Resolution.leads_resolve (chain : Option Int) (m : Match) (address : String) :
    Leads R (resolve out chain m address) := by
  rw [resolve_eq_report]
  refine .bind (Inquiry.leads_run hask _).outcome fun r => ?_
  rcases r with f | _ | ⟨_, _⟩
  · dsimp only [report]
    split
    · exact .bind (hlog _ _ _) fun _ => .pure _
    · exact .throw f
  · exact .bind (hlog _ _ _) fun _ => .pure _
  · exact .pure _

namespace Analysis

theorem leads_resolveEach (chain : Option Int) (found : List Match) :
    ∀ c, Leads R (resolveEach out chain c found) := by
  induction found with
  | nil => exact fun c => .pure c
  | cons m rest ih =>
    exact fun c => .bind (Resolution.leads_resolve hask hlog chain m c.address) fun r => ih _

/-- An analysis leads to whatever questions and messages lead to. -/
theorem leads_resolve (chain : Option Int) (record : ContractRecord) (found : List Match) :
    Leads R (resolve out chain record found) := by
  unfold resolve
  dsimp only
  split
  · exact .pure _
  · split
    · exact .bind (Resolution.leads_resolve hask hlog chain _ _) fun _ => .pure _
    · exact .pure _
  · refine .bind (leads_resolveEach hask hlog chain found _) fun c => .bind ?_ fun _ => .pure _
    unfold reportUnresolved
    split
    · exact hlog _ _ _
    · exact .pure _

end Analysis

end

end ProxyCensus
