import Mathlib.Algebra.Order.Field.Rat
import Mathlib.Logic.Function.Iterate
import Mathlib.Order.Iterate
import Mathlib.Tactic.Linarith
import ProxyCensus.Proofs.Act
import ProxyCensus.Proofs.Rpc.Rounds
import ProxyCensus.Proofs.Rpc.Trials

/-!
# How a client slows down

The interval of a client changes only when a node asks to slow down, and then always in the same way,
whatever the requests are. Main statement: in exact fractions of a second the interval never falls if it
was two seconds at most in the beginning; a longer one falls to two seconds with the first reply that
asks to slow down, and stays there.
-/

namespace ProxyCensus

namespace Pacing

/-- In fractions of a second slowing down is half as much again as before, from a twentieth of a second
on and up to two seconds. -/
theorem slowed_rat (i : Rat) : slowed i = min (max i (1 / 20) * (3 / 2)) 2 := by
  have hfloor : (Seconds.hundredths 5 : Rat) = 1 / 20 := by decide +kernel
  have hfactor : (Seconds.hundredths 150 : Rat) = 3 / 2 := by decide +kernel
  have hcap : (Seconds.hundredths 200 : Rat) = 2 := by decide +kernel
  unfold slowed
  simp only [hfloor, hfactor, hcap, Seconds.less, decide_eq_true_eq]
  by_cases hi : i < 1 / 20
  · rw [if_pos hi, max_eq_right hi.le]
    norm_num
  · rw [if_neg hi, max_eq_left (not_lt.1 hi)]
    by_cases hlong : 2 < i * (3 / 2)
    · rw [if_pos hlong, min_eq_right hlong.le]
    · rw [if_neg hlong, min_eq_left (not_lt.1 hlong)]

theorem slowed_le_two (i : Rat) : slowed i ≤ 2 :=
  slowed_rat i ▸ min_le_right _ _

theorem slowed_of_two_le {i : Rat} (h : 2 ≤ i) : slowed i = 2 := by
  rw [slowed_rat, min_eq_right]
  linarith [le_max_left i (1 / 20)]

/-- Slowing down makes the interval no shorter exactly if it was two seconds at most. -/
theorem le_slowed_iff {i : Rat} : i ≤ slowed i ↔ i ≤ 2 := by
  constructor
  · exact fun h => h.trans (slowed_le_two i)
  · intro h
    rw [slowed_rat]
    refine le_min ?_ h
    linarith [le_max_left i (1 / 20), le_max_right i (1 / 20)]

/-- Slowing down again and again never shortens an interval of two seconds at most. -/
theorem iterate_slowed_of_le {i : Rat} (h : i ≤ 2) (n : Nat) :
    slowed^[n] i ≤ slowed^[n + 1] i ∧ slowed^[n + 1] i ≤ 2 := by
  rw [Function.iterate_succ_apply']
  refine ⟨le_slowed_iff.2 ?_, slowed_le_two _⟩
  cases n with
  | zero => exact h
  | succ n => exact Function.iterate_succ_apply' slowed n i ▸ slowed_le_two _

/-- A longer interval is two seconds from the first time on. -/
theorem iterate_slowed_of_lt {i : Rat} (h : 2 < i) (n : Nat) : slowed^[n + 1] i = 2 := by
  induction n with
  | zero => exact slowed_of_two_le h.le
  | succ n ih => rw [Function.iterate_succ_apply', ih, slowed_of_two_le le_rfl]

end Pacing

namespace Delivery

theorem busy_iff {d : Delivery} : d.Busy ↔ ∃ body, d = .http 429 body := by
  constructor
  · rintro ⟨body⟩
    exact ⟨body, rfl⟩
  · rintro ⟨body, rfl⟩
    exact .intro body

instance : DecidablePred Busy
  | .fault _ => .isFalse nofun
  | .http status _ => decidable_of_iff (status = 429) (by simp [busy_iff])

end Delivery

/-- The client is slowed down exactly for a reply that asks for it. -/
theorem Rpc.judge_eq_busy_iff {method url : String} {d : Delivery} :
    judge method url d = .busy ↔ d.Busy := by
  have hfailure : ∀ f, judgeFailure method url f ≠ .busy := by
    intro f
    cases f with
    | network fault => cases h : fault.lasting? <;> simp [judgeFailure, h]
    | _ => simp [judgeFailure]
  have hbody : ∀ body, judgeBody method url body ≠ .busy := by
    intro body
    unfold judgeBody
    split
    · exact hfailure _
    · split
      · simp
      · exact hfailure _
    · simp
  rw [Delivery.busy_iff]
  cases d with
  | fault f => simp [judge, hfailure f]
  | http status body =>
    unfold judge
    by_cases hok : status = 200
    · simp [hok, hbody body]
    · by_cases hbusy : status = 429
      · simp [hbusy]
      · simp [hok, hbusy]

namespace Line

open Act (Agree Keeps Leads)

variable {α β : Type}

def pace (l : Line α) : α × List Post :=
  (l.client.interval, l.journal.posts)

theorem keeps_pace_writing {x : Act (Journal α) β} (h : Keeps Journal.posts x) :
    Keeps pace (writing x) :=
  .on h fun l _ hposts => congrArg (Prod.mk l.client.interval) hposts

theorem keeps_pace_connect : Keeps pace (connect : Act (Line α) Unit) :=
  (leads_connect (fun _ => (keeps_pace_writing fun _ => rfl).leads) fun _ => rfl).keeps

theorem keeps_pace_log (level : Level) (message : String) :
    Keeps pace (log level message : Act (Line α) Unit) :=
  keeps_pace_writing fun _ => rfl

variable [Seconds α] (out : Outside α)

/-- How many of the messages, the newest first, were answered with the wish to slow down. -/
def refusals : List Post → Nat
  | [] => 0
  | p :: sent => refusals sent + if (out.reply sent p).delivery.Busy then 1 else 0

/-- From one state of a line to another the client was slowed down as often as nodes have asked for it. -/
def Slows (l l' : Line α) : Prop :=
  ∃ n, refusals out l'.journal.posts = refusals out l.journal.posts + n ∧
    l'.client.interval = Pacing.slowed^[n] l.client.interval

instance : Std.Refl (Slows out) where
  refl _ := ⟨0, rfl, rfl⟩

instance : IsTrans (Line α) (Slows out) where
  trans := by
    rintro l l' l'' ⟨n, hn, hinterval⟩ ⟨m, hm, hinterval'⟩
    refine ⟨n + m, by omega, ?_⟩
    rw [hinterval', hinterval, Nat.add_comm, Function.iterate_add_apply]

theorem slows_of_agree {l l' : Line α} (h : Agree pace l l') : Slows out l l' := by
  obtain ⟨hinterval, hposts⟩ := Prod.mk.inj h
  exact ⟨0, by rw [hposts]; rfl, hinterval⟩

theorem keeps_pace_sleep (seconds : α) : Keeps pace (writing (Journal.sleep seconds)) :=
  keeps_pace_writing fun _ => rfl

theorem keeps_pace_keepDistance : Keeps pace (keepDistance : Act (Line α) Unit) :=
  (leads_keepDistance (fun seconds => (keeps_pace_sleep seconds).leads) fun _ _ => rfl).keeps

theorem rests_pace : Rests out (Agree (pace (α := α))) :=
  ⟨fun _ _ => (keeps_pace_log _ _).leads, (keeps_pace_writing fun _ => rfl).leads,
    fun seconds => (keeps_pace_sleep seconds).leads⟩

theorem rests_slows : Rests out (Slows out) :=
  (rests_pace out).mono (slows_of_agree out)

theorem pace_settle_busy (url method : String) (attempt : Nat) (l : Line α) :
    pace ((settle out url method attempt .busy).go l).2 =
      (Pacing.slowed l.client.interval, l.journal.posts) :=
  (rests_pace out).settle_busy url method attempt l

theorem keeps_pace_settle (url method : String) (attempt : Nat) {v : Rpc.Verdict} (hv : v ≠ .busy) :
    Keeps pace (settle out url method attempt v) :=
  ((rests_pace out).settle_of_ne_busy url method attempt hv).keeps

/-- One attempt slows the client down once if the reply asks for it, and otherwise not. -/
theorem leads_tryUrl (request : Request) (attempt : Nat) (url : Json) :
    Leads (Slows out) (tryUrl out (pure ()) request attempt url) := by
  intro l
  let p : Post := ⟨url, request, l.client.lastId + 1⟩
  let l₁ : Line α := { l with client := { l.client with lastId := l.client.lastId + 1 } }
  let l₂ := (keepDistance.go l₁).2
  let l₃ := ((writing (Journal.send out p)).go l₂).2
  let d := (out.reply l₂.journal.posts p).delivery
  have hgo : (tryUrl out (pure ()) request attempt url).go l =
      (settle out url.display request.method attempt
        (Rpc.judge request.method url.display d)).go l₃ :=
    go_tryUrl out (fun _ => rfl) request attempt url l
  obtain ⟨hinterval, hposts⟩ := Prod.mk.inj (keeps_pace_keepDistance l₁)
  have hrefusals : refusals out l₃.journal.posts =
      refusals out l.journal.posts + if d.Busy then 1 else 0 :=
    congrArg (fun sent => refusals out sent + if d.Busy then 1 else 0) hposts
  rw [hgo]
  by_cases hbusy : d.Busy
  · rw [Rpc.judge_eq_busy_iff.2 hbusy]
    obtain ⟨hslowed, hkept⟩ := Prod.mk.inj (pace_settle_busy out url.display request.method attempt l₃)
    refine ⟨1, ?_, ?_⟩
    · rw [hkept, hrefusals, if_pos hbusy]
    · rw [hslowed]
      exact congrArg Pacing.slowed hinterval
  · have hv : Rpc.judge request.method url.display d ≠ .busy := fun h => hbusy (Rpc.judge_eq_busy_iff.1 h)
    obtain ⟨hsame, hkept⟩ := Prod.mk.inj
      (keeps_pace_settle out url.display request.method attempt hv l₃)
    refine ⟨0, ?_, hsame.trans hinterval⟩
    rw [hkept, hrefusals, if_neg hbusy]

theorem leads_ask (request : Request) : Leads (Slows out) (ask out request) :=
  leads_askAmid (rests_slows out) (fun l => slows_of_agree out (keeps_pace_connect l))
    (leads_tryUrl out request)

/-- Whatever is asked, the client is slowed down as often as nodes ask for it. -/
theorem leads_askAll (requests : List Request) : Leads (Slows out) (askAll out requests) := by
  induction requests with
  | nil => exact .pure _
  | cons request rest ih => exact .bind (leads_ask out request).outcome fun _ => .bind ih fun _ => .pure _

theorem state_askAll_append (before after : List Request) (l : Line α) :
    ((askAll out (before ++ after)).go l).2 = ((askAll out after).go ((askAll out before).go l).2).2 := by
  induction before generalizing l with
  | nil => rfl
  | cons request rest ih => rw [List.cons_append, go_askAll_cons, go_askAll_cons, ih]

variable {out}

/-- Between two points of a sequence of requests the client was slowed down as often as nodes asked for
it. -/
theorem slows_take (requests : List Request) (l : Line α) {j k : Nat} (h : j ≤ k) :
    Slows out ((askAll out (requests.take j)).go l).2 ((askAll out (requests.take k)).go l).2 := by
  obtain ⟨more, hmore⟩ := List.take_prefix_take_left h (l := requests)
  rw [← hmore, state_askAll_append]
  exact leads_askAll out more _

/-- The interval of a client, in exact fractions of a second, after any of some requests, whatever nodes
reply: it is slowed down once for every reply that has asked for it. Up to two seconds this makes the
interval no shorter; a longer one is two seconds from the first time on. So the interval never falls
exactly if it was two seconds at most in the beginning, or no reply asks to slow down. -/
theorem interval_never_falls_iff (out : Outside Rat) (requests : List Request) (l : Line Rat) :
    let after (k : Nat) := ((askAll out (requests.take k)).go l).2
    let asked (k : Nat) := refusals out (after k).journal.posts - refusals out l.journal.posts
    let start := l.client.interval
    (∀ k, (after k).client.interval = Pacing.slowed^[asked k] start) ∧
    (start ≤ 2 → ∀ n, Pacing.slowed^[n] start ≤ Pacing.slowed^[n + 1] start ∧
      Pacing.slowed^[n + 1] start ≤ 2) ∧
    (2 < start → ∀ n, Pacing.slowed^[n + 1] start = 2) ∧
    ((∀ j k, j ≤ k → (after j).client.interval ≤ (after k).client.interval) ↔
      start ≤ 2 ∨ ∀ k, asked k = 0) := by
  intro after asked start
  have hinterval : ∀ k, (after k).client.interval = Pacing.slowed^[asked k] start := by
    intro k
    obtain ⟨n, hn, hslowed⟩ : Slows out l (after k) := slows_take requests l k.zero_le
    have hasked : asked k = n := by
      simp only [asked, hn, Nat.add_sub_cancel_left]
    rw [hslowed, hasked]
  refine ⟨hinterval, Pacing.iterate_slowed_of_le, Pacing.iterate_slowed_of_lt, ?_, ?_⟩
  · intro hgrows
    by_contra hfalls
    rw [not_or, not_le, not_forall] at hfalls
    obtain ⟨hlong, k, hk⟩ := hfalls
    obtain ⟨n, hn⟩ := Nat.exists_eq_succ_of_ne_zero hk
    have hle : start ≤ (after k).client.interval := hgrows 0 k k.zero_le
    rw [hinterval, hn, Pacing.iterate_slowed_of_lt hlong] at hle
    exact absurd hle (not_le.2 hlong)
  · intro h j k hjk
    rcases h with hshort | hnever
    · obtain ⟨n, hn, -⟩ : Slows out (after j) (after k) := slows_take requests l hjk
      have hmono : Monotone fun n => Pacing.slowed^[n] start :=
        monotone_nat_of_le_succ fun n => (Pacing.iterate_slowed_of_le hshort n).1
      rw [hinterval, hinterval]
      exact hmono (Nat.sub_le_sub_right (hn ▸ Nat.le_add_right _ n) _)
    · rw [hinterval, hinterval, hnever, hnever]

def alwaysBusy : Outside Rat where
  reply _ _ := ⟨0, .http 429 .empty⟩
  jitter _ := 0
  stopwatch _ := .whole 0
  date _ := 0
  stop _ := false
  disturbance _ := none
  rows := []
  codes _ _ := []
  flushFault _ := none

theorem interval_falls_from_five_seconds :
    let l : Line Rat := ⟨⟨.list [.str "http://rpc"], 1, 30, 5, 0, 0, .none⟩, { clock := 0 }⟩
    let l' := ((askAll alwaysBusy [.slotOf "0x0" "0x0"]).go l).2
    2 < l.client.interval ∧ l'.client.interval = 2 ∧ ¬ l.client.interval ≤ l'.client.interval := by
  intro l l'
  obtain ⟨hinterval, -, hlong, -⟩ := interval_never_falls_iff alwaysBusy [.slotOf "0x0" "0x0"] l
  have hfive : (2 : Rat) < l.client.interval := by decide +kernel
  have hone : refusals alwaysBusy l'.journal.posts - refusals alwaysBusy l.journal.posts = 1 := by
    decide +kernel
  have htwo : l'.client.interval = 2 :=
    (hinterval 1).trans ((congrArg (Pacing.slowed^[·] l.client.interval) hone).trans (hlong hfive 0))
  exact ⟨hfive, htwo, htwo ▸ not_le.2 hfive⟩

end Line

end ProxyCensus
