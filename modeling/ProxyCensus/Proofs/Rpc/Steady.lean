import ProxyCensus.Proofs.Rpc.Rounds
import ProxyCensus.Proofs.Rpc.Setting

/-!
# Steady clients

Clients whose requests end with an answer or fail for a reason of their own: the nodes reply or fail
as networks do, and every round may be followed by a pause. Main statements: a request on a steady
client has no other failures but for a reply that nests too deep, which sinks it, and the client stays
steady; how computations on such a client come together; and those that handle all failures that
requests have of their own return exactly when no reply sinks them.
-/

namespace ProxyCensus

namespace Outside

variable {α : Type} {out : Outside α} {before posts later : List Post}

/-- Since the messages `before` a message was sent to which the reply nests too deep. The newest message
stands first. -/
def Sinks (out : Outside α) (before posts : List Post) : Prop :=
  ∃ sent p reason, (p :: sent) <:+ posts ∧ before.length ≤ sent.length ∧
    (out.reply sent p).delivery.TooDeep reason

theorem not_sinks_self (out : Outside α) (posts : List Post) : ¬ out.Sinks posts posts := by
  rintro ⟨sent, p, reason, hsuffix, hlength, -⟩
  have hle := hsuffix.length_le
  rw [List.length_cons] at hle
  omega

theorem not_sinks_of_shallow (h : ∀ sent p reason, ¬ (out.reply sent p).delivery.TooDeep reason) :
    ¬ out.Sinks before posts :=
  fun ⟨sent, p, reason, _, _, hdeep⟩ => h sent p reason hdeep

/-- Of two steps one was sunk when both together were. -/
theorem sinks_trans_iff (h : before <:+ posts) (h' : posts <:+ later) :
    out.Sinks before later ↔ out.Sinks before posts ∨ out.Sinks posts later := by
  constructor
  · rintro ⟨sent, p, reason, hsuffix, hlength, hdeep⟩
    by_cases hearly : sent.length < posts.length
    · exact .inl ⟨sent, p, reason, List.suffix_of_suffix_length_le hsuffix h' hearly, hlength, hdeep⟩
    · exact .inr ⟨sent, p, reason, hsuffix, Nat.not_lt.1 hearly, hdeep⟩
  · rintro (⟨sent, p, reason, hsuffix, hlength, hdeep⟩ | ⟨sent, p, reason, hsuffix, hlength, hdeep⟩)
    · exact ⟨sent, p, reason, hsuffix.trans h', hlength, hdeep⟩
    · exact ⟨sent, p, reason, hsuffix, Nat.le_trans h.length_le hlength, hdeep⟩

end Outside

namespace Line

variable {α β γ : Type} [Seconds α]

/-- A client of nodes that reply or fail as networks do, in no more rounds than there are pauses. -/
structure Steady (out : Outside α) (l : Line α) : Prop where
  plain : ∀ sent p, (out.reply sent p).delivery.Plain
  urls : ∃ urls, l.client.endpoints = .list urls ∧ urls ≠ []
  paced : ∀ round ≤ l.client.rounds.toNat, Pacing.Paced α round

variable {out : Outside α}

theorem Steady.of_setting {l l' : Line α} (h : l.Steady out) (hsetting : setting l' = setting l) :
    l'.Steady out := by
  simp only [setting, Prod.mk.injEq] at hsetting
  obtain ⟨hends, hrounds, -⟩ := hsetting
  refine ⟨h.plain, ?_, ?_⟩
  · rw [hends]
    exact h.urls
  · rw [hrounds]
    exact h.paced

/-- From one state of a line to another messages were added to those that were sent before. -/
def Longer (l l' : Line α) : Prop :=
  l.journal.posts <:+ l'.journal.posts

omit [Seconds α] in
instance : Std.Refl (Longer (α := α)) where
  refl _ := List.suffix_rfl

omit [Seconds α] in
instance : IsTrans (Line α) Longer where
  trans _ _ _ h h' := h.trans h'

/-- From one state of a line to another a message was sent to which the reply nests too deep. -/
def Sunk (out : Outside α) (l l' : Line α) : Prop :=
  out.Sinks l.journal.posts l'.journal.posts

omit [Seconds α] in
theorem not_sunk_of_posts {l l' : Line α} (h : l'.journal.posts = l.journal.posts) :
    ¬ Sunk out l l' := by
  rw [Sunk, h]
  exact out.not_sinks_self _

omit [Seconds α] in
theorem sunk_trans_iff {l l' l'' : Line α} (h : Longer l l') (h' : Longer l' l'') :
    Sunk out l l'' ↔ Sunk out l l' ∨ Sunk out l' l'' :=
  Outside.sinks_trans_iff h h'

end Line

namespace Trial

variable {α : Type} {t : Trial α}

theorem take_posts {n k : Nat} (h : k ≤ n) : (t.posts n).take k = t.posts k := by
  rw [posts, ← List.map_take, List.take_range, Nat.min_eq_left h]
  rfl

theorem sunk_iff {n : Nat} {l : Line α} (h : t.start.Sends (t.posts n) l) :
    Line.Sunk t.out t.start l ↔ ∃ i < n, ∃ reason, (t.delivery i).TooDeep reason := by
  have hsuffix : ∀ i < n, (t.post i :: ((t.posts i).reverse ++ t.start.journal.posts)) <:+
      l.journal.posts := by
    intro i hi
    rw [h.posts, ← List.cons_append, ← List.reverse_concat, ← posts_succ,
      ← take_posts (Nat.succ_le_of_lt hi)]
    obtain ⟨more, hmore⟩ := List.take_prefix (i + 1) (t.posts n)
    exact ⟨more.reverse, by rw [← List.append_assoc, ← List.reverse_append, hmore]⟩
  constructor
  · rintro ⟨sent, p, reason, hsent, hlength, hdeep⟩
    have hle := hsent.length_le
    rw [h.posts, List.length_cons, List.length_append, List.length_reverse, length_posts] at hle
    obtain ⟨i, hi⟩ := Nat.exists_eq_add_of_le hlength
    have hsame : (p :: sent).length =
        (t.post i :: ((t.posts i).reverse ++ t.start.journal.posts)).length := by
      rw [List.length_cons, List.length_cons, List.length_append, List.length_reverse, length_posts]
      omega
    have heq := List.suffix_of_suffix_length_le hsent (hsuffix i (by omega)) (Nat.le_of_eq hsame)
    obtain ⟨rfl, rfl⟩ := List.cons.inj (heq.eq_of_length hsame)
    exact ⟨i, by omega, reason, hdeep⟩
  · rintro ⟨i, hi, reason, hdeep⟩
    refine ⟨_, _, reason, hsuffix i hi, ?_, hdeep⟩
    rw [List.length_append]
    exact Nat.le_add_left _ _

end Trial

namespace Line

variable {α β γ : Type} [Seconds α] {out : Outside α}

/-- A computation that leaves the setting of its client alone. On a steady client it fails with a
recursion exactly when a reply to one of its messages nests too deep, and has no other failures than
those that are allowed. -/
structure FailsOnly (out : Outside α) (allowed : Failure → Prop) (x : Act (Line α) β) : Prop where
  keeps : Act.Keeps setting x
  longer : Act.Leads Longer x
  allowed : ∀ l, l.Steady out → ∀ f, (x.go l).1 = .error f →
    allowed f ∨ Sunk out l (x.go l).2
  sunk : ∀ l, l.Steady out → Sunk out l (x.go l).2 →
    0 < l.client.rounds ∧ ∃ reason, (x.go l).1 = .error (.recursion reason)

namespace FailsOnly

variable {allowed : Failure → Prop}

/-- A computation that sends nothing has only its own failures. -/
theorem of_posts {x : Act (Line α) β} (hkeeps : Act.Keeps setting x)
    (hposts : Act.Keeps (fun l => l.journal.posts) x)
    (h : ∀ l f, (x.go l).1 = .error f → allowed f) : FailsOnly out allowed x where
  keeps := hkeeps
  longer l := by
    have h : (x.go l).2.journal.posts = l.journal.posts := hposts l
    exact ⟨[], h.symm⟩
  allowed l _ f hf := .inl (h l f hf)
  sunk l _ hsunk := absurd hsunk (not_sunk_of_posts (hposts l))

theorem pure (a : β) : FailsOnly out allowed (Pure.pure a : Act (Line α) β) :=
  .of_posts (.pure a) (.pure a) fun _ _ h => by cases h

theorem lift {r : Except Failure β} (h : ∀ f, r = .error f → allowed f) :
    FailsOnly out allowed (Act.lift r) :=
  .of_posts (.lift r) (.lift r) fun _ f hf => h f hf

theorem throw {f : Failure} (h : allowed f) :
    FailsOnly out allowed (MonadExcept.throw f : Act (Line α) β) := by
  refine .of_posts (.throw f) (.throw f) fun _ g hg => ?_
  obtain rfl := Except.error.inj hg
  exact h

theorem log {level : Level} {logger message : String} :
    FailsOnly out allowed (writing (Journal.log level logger message)) :=
  .of_posts (keeps_writing fun _ => rfl) (fun _ => rfl) fun _ _ h => by cases h

theorem bind {x : Act (Line α) β} {f : β → Act (Line α) γ} (hx : FailsOnly out allowed x)
    (hf : ∀ a, FailsOnly out allowed (f a)) : FailsOnly out allowed (x >>= f) := by
  refine ⟨hx.keeps.bind fun a => (hf a).keeps, hx.longer.bind fun a => (hf a).longer,
    fun l hl g hg => ?_, fun l hl hsunk => ?_⟩
  · cases h : (x.go l).1 with
    | ok a =>
      rw [Act.go_bind_of_ok h] at hg ⊢
      refine ((hf a).allowed _ (hl.of_setting (hx.keeps l)) g hg).imp_right fun hsunk => ?_
      exact (sunk_trans_iff (hx.longer l) ((hf a).longer _)).2 (.inr hsunk)
    | error e =>
      rw [Act.go_bind_of_error h] at hg ⊢
      obtain rfl := Except.error.inj hg
      exact hx.allowed l hl e h
  · cases h : (x.go l).1 with
    | ok a =>
      rw [Act.go_bind_of_ok h] at hsunk ⊢
      rcases (sunk_trans_iff (hx.longer l) ((hf a).longer _)).1 hsunk with hsunk | hsunk
      · obtain ⟨-, reason, hreason⟩ := hx.sunk l hl hsunk
        cases h.symm.trans hreason
      · have hrounds := rounds_of_setting (hx.keeps l)
        exact hrounds ▸ (hf a).sunk _ (hl.of_setting (hx.keeps l)) hsunk
    | error e =>
      rw [Act.go_bind_of_error h] at hsunk ⊢
      obtain ⟨hrounds, reason, hreason⟩ := hx.sunk l hl hsunk
      obtain rfl := Except.error.inj (h.symm.trans hreason)
      exact ⟨hrounds, reason, rfl⟩

theorem mono {allowed' : Failure → Prop} {x : Act (Line α) β} (hx : FailsOnly out allowed x)
    (h : ∀ f, allowed f → allowed' f) : FailsOnly out allowed' x :=
  { hx with allowed := fun l hl f hf => (hx.allowed l hl f hf).imp_left (h f) }

/-- What is done with every failure that was allowed, while any other one is passed on. -/
theorem handle {allowed' : Failure → Prop} {x : Act (Line α) β}
    {f : Except Failure β → Act (Line α) γ} (hx : FailsOnly out allowed x)
    (hdeep : ∀ reason, ¬ allowed (.recursion reason))
    (hok : ∀ a, FailsOnly out allowed' (f (.ok a)))
    (hallowed : ∀ e, allowed e → FailsOnly out allowed' (f (.error e)))
    (hother : ∀ e, ¬ allowed e → f (.error e) = MonadExcept.throw e) :
    FailsOnly out allowed' (x.outcome >>= f) := by
  have hgo : ∀ l, (x.outcome >>= f).go l = (f (x.go l).1).go (x.go l).2 := fun l => by
    rw [Act.go_bind, Act.go_outcome]
  have hcases : ∀ r : Except Failure β,
      FailsOnly out allowed' (f r) ∨ ∃ e, ¬ allowed e ∧ r = .error e := by
    intro r
    cases r with
    | ok a => exact .inl (hok a)
    | error e =>
      by_cases he : allowed e
      · exact .inl (hallowed e he)
      · exact .inr ⟨e, he, rfl⟩
  have hany : ∀ r, FailsOnly out (fun _ => True) (f r) := by
    intro r
    rcases hcases r with h | ⟨e, he, rfl⟩
    · exact h.mono fun _ _ => trivial
    · rw [hother e he]
      exact .throw trivial
  refine ⟨hx.keeps.outcome.bind fun r => (hany r).keeps,
    hx.longer.outcome.bind fun r => (hany r).longer, fun l hl g hg => ?_, fun l hl hsunk => ?_⟩
  · have hend := hl.of_setting (hx.keeps l)
    rw [hgo] at hg ⊢
    rcases hcases (x.go l).1 with h | ⟨e, he, hr⟩
    · refine (h.allowed _ hend g hg).imp_right fun hsunk => ?_
      exact (sunk_trans_iff (hx.longer l) ((hany _).longer _)).2 (.inr hsunk)
    · rw [hr, hother e he]
      exact .inr ((hx.allowed l hl e hr).resolve_left he)
  · rw [hgo] at hsunk ⊢
    rcases (sunk_trans_iff (hx.longer l) ((hany _).longer _)).1 hsunk with hsunk | hsunk
    · obtain ⟨hrounds, reason, hreason⟩ := hx.sunk l hl hsunk
      rw [hreason, hother _ (hdeep reason)]
      exact ⟨hrounds, reason, rfl⟩
    · rcases hcases (x.go l).1 with h | ⟨e, he, hr⟩
      · exact rounds_of_setting (hx.keeps l) ▸ h.sunk _ (hl.of_setting (hx.keeps l)) hsunk
      · rw [hr, hother e he] at hsunk
        exact absurd hsunk (not_sunk_of_posts rfl)

/-- Without allowed failures a computation returns, unless a reply nests too deep. -/
theorem returns_iff {x : Act (Line α) β} (hx : FailsOnly out (fun _ => False) x) {l : Line α}
    (hl : l.Steady out) : (∃ a, (x.go l).1 = .ok a) ↔ ¬ Sunk out l (x.go l).2 := by
  constructor
  · rintro ⟨a, ha⟩ hsunk
    obtain ⟨-, reason, hreason⟩ := hx.sunk l hl hsunk
    cases ha.symm.trans hreason
  · intro hsunk
    cases h : (x.go l).1 with
    | ok a => exact ⟨a, rfl⟩
    | error f => exact absurd (hx.allowed l hl f h) (by simpa using hsunk)

end FailsOnly

theorem rests_longer (out : Outside α) : Rests out (Longer (α := α)) :=
  (rests_silent out).mono fun h => by
    change _ <:+ _
    rw [h.posts]
    exact List.suffix_append _ _

theorem longer_ask (out : Outside α) (request : Request) : Act.Leads Longer (ask out request) := by
  refine leads_askAmid (rests_longer out) ?_ fun attempt url => ?_
  · exact leads_connect (fun _ _ => List.suffix_rfl) fun _ => List.suffix_rfl
  · exact (rests_longer out).tryUrl (fun _ _ _ _ => List.suffix_rfl)
      (fun _ _ => List.suffix_cons _ _) (.pure ())

/-- On a steady client a request that is not answered fails as a request, or with a reply that nests too
deep. -/
theorem ask_fails (out : Outside α) (request : Request) :
    FailsOnly out (fun f => ∃ m, f = .request m) (ask out request) := by
  refine ⟨keeps_ask out request, longer_ask out request, fun l hl f hf => ?_, fun l hl hsunk => ?_⟩
  · obtain ⟨urls, hends, hurls⟩ := hl.urls
    obtain ⟨n, hdecided⟩ := Trial.ask_decided
      (t := ⟨out, request, urls, l.client.rounds, l⟩) hl.plain hurls hends rfl
    rcases (hdecided.of_paced hl.paced).answer_or_failure with
      ⟨v, hv⟩ | ⟨m, hm⟩ | ⟨i, reason, hi, -, hdeep, -⟩
    · cases hv.symm.trans hf
    · exact .inl ⟨m, (Except.error.inj (hm.symm.trans hf)).symm⟩
    · exact .inr ((Trial.sunk_iff hdecided.sends).2 ⟨i, hi, reason, hdeep⟩)
  · obtain ⟨urls, hends, hurls⟩ := hl.urls
    obtain ⟨n, hdecided⟩ := Trial.ask_decided
      (t := ⟨out, request, urls, l.client.rounds, l⟩) hl.plain hurls hends rfl
    obtain ⟨i, hi, reason, hdeep⟩ := (Trial.sunk_iff hdecided.sends).1 hsunk
    obtain ⟨hlimit, hr⟩ := hdecided.of_tooDeep hi hdeep
    refine ⟨?_, reason, hr⟩
    by_contra hnone
    rw [Trial.limit, Int.toNat_of_nonpos (Int.not_lt.1 hnone), Nat.zero_mul] at hlimit
    exact absurd hlimit (Nat.not_lt_zero _)

end Line

end ProxyCensus
