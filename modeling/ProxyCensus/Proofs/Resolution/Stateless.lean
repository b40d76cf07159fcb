import ProxyCensus.Proofs.Resolution.Alike

/-!
# Nodes without a memory

The nodes of a stateless outside go by the address and the request, not by its number, nor by what was sent
before, nor by the time. Main statement: to what an analysis comes then depends on the addresses and the
rounds of the client alone, however fast the client is and however many requests it has sent.
-/

namespace ProxyCensus

open Act (Keeps Alike)

variable {α β : Type}

/-- What a node delivers depends on the address, the method and the parameters alone. -/
structure Outside.Stateless (out : Outside α) : Prop where
  delivery_eq : ∀ sent sent' url request id id',
    (out.reply sent ⟨url, request, id⟩).delivery = (out.reply sent' ⟨url, request, id'⟩).delivery

namespace Line

def reach (l : Line α) : Endpoints × Int :=
  (l.client.endpoints, l.client.rounds)

theorem keeps_reach {x : Act (Line α) β} (h : Keeps setting x) : Keeps reach x :=
  fun l => Prod.ext (congrArg (·.1) (h l)) (congrArg (·.2.1) (h l))

theorem keeps_reach_log (level : Level) (logger message : String) :
    Keeps reach (writing (Journal.log level logger message) : Act (Line α) Unit) :=
  keeps_reach (keeps_writing fun _ => rfl)

variable [Seconds α]

/-- Whether there is a pause does not depend on the state, and a pause returns nothing. -/
theorem Paused.unique {attempt : Nat} {r r' : Except Failure Unit} (h : Paused α attempt (fun _ => True) r)
    (h' : Paused α attempt (fun _ => True) r') : r = r' := by
  rcases h with ⟨hp, _, rfl, -⟩ | ⟨hp, rfl⟩
  · rcases h' with ⟨-, _, rfl, -⟩ | ⟨hp', -⟩
    · rfl
    · exact absurd hp hp'
  · rcases h' with ⟨hp', -⟩ | ⟨-, rfl⟩
    · exact absurd hp' hp
    · rfl

theorem alike_reach_backOff (out : Outside α) (url : String) (attempt : Nat) (method : String) :
    Alike reach (backOff out url attempt method) (backOff out url attempt method) := by
  have hkeeps := keeps_reach (keeps_backOff out url attempt method)
  exact .of_keeps hkeeps hkeeps fun l l' =>
    (paused_backOff out url attempt method l).unique (paused_backOff out url attempt method l')

/-- Before stateless nodes the results of requests depend on the addresses and the rounds alone. -/
theorem akin_reach {out : Outside α} (h : out.Stateless) : Akin reach out out := by
  refine ⟨fun l l' hreach => Prod.mk.inj hreach, keeps_reach_log, ?_,
    fun request attempt url => ?_, fun attempt => ?_⟩
  · exact .of_keeps (keeps_reach keeps_connect) (keeps_reach keeps_connect) fun l l' =>
      (connect_ok l).trans (connect_ok l').symm
  · refine .bind_state fun l l' hreach => ?_
    refine Alike.bind (.change fun _ _ hpart => hpart) fun _ => ?_
    refine Alike.bind (.of_keeps (keeps_reach keeps_keepDistance) (keeps_reach keeps_keepDistance)
      fun _ _ => (keepDistance_ok _).trans (keepDistance_ok _).symm) fun _ => ?_
    have hsend : Alike reach (writing (Journal.send out ⟨url, request, l.client.lastId + 1⟩))
        (writing (Journal.send out ⟨url, request, l'.client.lastId + 1⟩)) :=
      .of_keeps (keeps_reach (keeps_writing fun _ => rfl)) (keeps_reach (keeps_writing fun _ => rfl))
        fun _ _ => congrArg Except.ok (h.delivery_eq ..)
    exact hsend.bind fun _ => (Alike.pure ()).bind fun _ =>
      alike_settle keeps_reach_log (alike_reach_backOff out) _ _ _ _
  · have hkeeps : Keeps reach (do writing (Journal.sleep (← drawPause out attempt))) :=
      .bind (keeps_reach (keeps_drawPause out attempt)) fun _ => keeps_reach (keeps_sleep _)
    have hpaused : ∀ l, Paused α attempt (fun _ => True)
        (Act.go (do writing (Journal.sleep (← drawPause out attempt))) l).1 := fun l =>
      (paused_drawPause out attempt l).bind fun _ _ => ⟨(), rfl, trivial⟩
    exact .of_keeps hkeeps hkeeps fun l l' => (hpaused l).unique (hpaused l')

/-- Before stateless nodes clients with the same addresses and rounds come to the same results. -/
theorem analysis_eq {out : Outside α} (h : out.Stateless) {l l' : Line α} (hreach : l.reach = l'.reach)
    (chain : Option Int) (record : ContractRecord) (found : List Match) :
    ((Analysis.resolve out chain record found).go l).1 =
    ((Analysis.resolve out chain record found).go l').1 :=
  ((akin_reach h).analysis chain record found l l' hreach).1

end Line

end ProxyCensus
