import Mathlib.Data.List.Nodup
import ProxyCensus.Proofs.Rpc.Setting
import ProxyCensus.Rpc.Sharing

/-!
# One request at a time

What becomes of errands that share a client. Main statements: every request among them is served exactly
once, whatever else is done with the client meanwhile, and all messages of a request come before those of
the next one; requests that come up at the same time are served in their order.
-/

namespace ProxyCensus

/-- A request that was served: where it stood, what came of it, and its messages, the oldest first. -/
structure Service where
  place : Place
  request : Request
  result : Except Failure Json
  sent : List Post

namespace Errand

variable {α : Type}

mutual

/-- The requests inside an errand at a place. -/
def asked (place : Place) : Errand α → List (Place × Request)
  | .ask request => [(place, request)]
  | .all errands => askedFrom place 0 errands
  | _ => []

/-- The requests inside errands that are numbered from `i` on. -/
def askedFrom (place : Place) (i : Nat) : List (Errand α) → List (Place × Request)
  | [] => []
  | t :: rest => asked (place ++ [i]) t ++ askedFrom place (i + 1) rest

end

mutual

theorem prefix_of_mem_asked {place p : Place} :
    ∀ {t : Errand α}, p ∈ (asked place t).map (·.1) → place <+: p
  | .ask _, h => by
    obtain rfl : p = place := by simpa [asked] using h
    exact List.prefix_rfl
  | .all errands, h => by
    rw [asked] at h
    obtain ⟨k, -, hk⟩ := prefix_of_mem_askedFrom h
    exact (List.prefix_append _ _).trans hk
  | .close, h | .advance _, h | .idle, h => by simp [asked] at h

theorem prefix_of_mem_askedFrom {place p : Place} {i : Nat} :
    ∀ {errands : List (Errand α)}, p ∈ (askedFrom place i errands).map (·.1) →
      ∃ k, i ≤ k ∧ place ++ [k] <+: p
  | [], h => by simp [askedFrom] at h
  | t :: rest, h => by
    rw [askedFrom, List.map_append, List.mem_append] at h
    rcases h with h | h
    · exact ⟨i, Nat.le_refl _, prefix_of_mem_asked h⟩
    · obtain ⟨k, hik, hk⟩ := prefix_of_mem_askedFrom h
      exact ⟨k, by omega, hk⟩

end

/-- Places whose numbers differ behind a common part have nothing behind them in common. -/
theorem eq_of_prefixes {place p : Place} {i k : Nat} (hi : place ++ [i] <+: p) (hk : place ++ [k] <+: p) :
    i = k := by
  obtain h := List.prefix_of_prefix_length_le hi hk (by simp)
  simpa using h.eq_of_length (by simp)

mutual

theorem nodup_asked (place : Place) : ∀ t : Errand α, ((asked place t).map (·.1)).Nodup
  | .ask _ => List.nodup_singleton _
  | .all errands => by
    rw [asked]
    exact nodup_askedFrom place 0 errands
  | .close | .advance _ | .idle => List.nodup_nil

/-- No two requests stand at the same place. -/
theorem nodup_askedFrom (place : Place) (i : Nat) :
    ∀ errands : List (Errand α), ((askedFrom place i errands).map (·.1)).Nodup
  | [] => List.nodup_nil
  | t :: rest => by
    rw [askedFrom, List.map_append]
    refine (nodup_asked _ t).append (nodup_askedFrom place (i + 1) rest) fun p hp hrest => ?_
    obtain ⟨k, hik, hk⟩ := prefix_of_mem_askedFrom hrest
    have := eq_of_prefixes (prefix_of_mem_asked hp) hk
    omega

end

theorem turns_pos (t : Errand α) : 0 < t.turns := by
  cases t <;> simp [turns]

theorem turnsOf_append (ts us : List (Errand α)) : turnsOf (ts ++ us) = turnsOf ts + turnsOf us := by
  induction ts with
  | nil => simp [turnsOf]
  | cons t ts ih => simp only [List.cons_append, turnsOf, ih, Nat.add_assoc]

theorem turnsOf_asks (requests : List Request) :
    turnsOf (requests.map (.ask (α := α))) = requests.length := by
  induction requests with
  | nil => rfl
  | cons request rest ih =>
    rw [List.map_cons, turnsOf, ih, List.length_cons, Nat.add_comm]
    rfl

end Errand

namespace Turns

variable {α : Type}

/-- The requests inside errands at their places. -/
def asked (turns : Turns α) : List (Place × Request) :=
  turns.flatMap fun (place, t) => t.asked place

def left (turns : Turns α) : Nat :=
  Errand.turnsOf (turns.map (·.2))

theorem left_cons (place : Place) (t : Errand α) (rest : Turns α) :
    left ((place, t) :: rest) = t.turns + rest.left :=
  rfl

theorem left_append (turns more : Turns α) : left (turns ++ more) = turns.left + more.left := by
  simp only [left, List.map_append, Errand.turnsOf_append]

theorem asked_append (turns more : Turns α) : asked (turns ++ more) = turns.asked ++ more.asked := by
  simp only [asked, List.flatMap_append]

theorem asked_all (place : Place) (errands : List (Errand α)) (rest : Turns α) :
    asked ((place, .all errands) :: rest) = Errand.askedFrom place 0 errands ++ rest.asked := by
  rw [← Errand.asked]
  rfl

theorem left_startedBy (place : Place) (errands : List (Errand α)) :
    (startedBy place errands).left = Errand.turnsOf errands := by
  have h : (startedBy place errands).map (·.2) = errands := by
    simp only [startedBy, List.map_map]
    exact List.zipIdx_map_fst 0 errands
  rw [left, h]

theorem asked_startedBy (place : Place) (errands : List (Errand α)) :
    (startedBy place errands).asked = Errand.askedFrom place 0 errands := by
  have h : ∀ i, asked ((errands.zipIdx i).map fun e => (place ++ [e.2], e.1)) =
      Errand.askedFrom place i errands := by
    induction errands with
    | nil => exact fun _ => by simp [asked, Errand.askedFrom]
    | cons t rest ih =>
      intro i
      rw [Errand.askedFrom, ← ih (i + 1)]
      rfl
  exact h 0

/-- A turn of everyone brings up the requests, and what they are inside of starts. -/
theorem asked_perm_started (turns : Turns α) :
    turns.asked.Perm (turns.requests ++ turns.started.asked) := by
  induction turns with
  | nil => exact .nil
  | cons head rest ih =>
    obtain ⟨place, t⟩ := head
    cases t with
    | ask request => exact ih.cons (place, request)
    | all errands =>
      have hstarted : started ((place, .all errands) :: rest) =
        startedBy place errands ++ started rest := rfl
      rw [asked_all, hstarted, asked_append, asked_startedBy]
      exact (ih.append_left _).trans (List.perm_append_comm_assoc ..)
    | close | advance _ | idle => exact ih

theorem asked_perm_within (n : Nat) (turns : Turns α) :
    turns.asked.Perm (turns.requestsWithin n ++ (turns.waitingAfter n).asked) := by
  induction n generalizing turns with
  | zero => exact .rfl
  | succ n ih =>
    rw [requestsWithin, waitingAfter, List.append_assoc]
    exact turns.asked_perm_started.trans ((ih turns.started).append_left _)

theorem left_started (turns : Turns α) :
    turns.requests.length + turns.started.left ≤ turns.left := by
  induction turns with
  | nil => exact Nat.le_refl _
  | cons head rest ih =>
    obtain ⟨place, t⟩ := head
    cases t with
    | ask request =>
      have hleft : left ((place, .ask request) :: rest) = 1 + left rest := rfl
      have hrequests : requests ((place, .ask request) :: rest) = (place, request) :: requests rest := rfl
      have hstarted : started ((place, .ask request) :: rest) = started rest := rfl
      rw [hleft, hrequests, hstarted, List.length_cons]
      omega
    | all errands =>
      have hleft : left ((place, .all errands) :: rest) = Errand.turnsOf errands + 1 + left rest := rfl
      have hrequests : requests ((place, .all errands) :: rest) = requests rest := rfl
      have hstarted : started ((place, .all errands) :: rest) =
        startedBy place errands ++ started rest := rfl
      rw [hleft, hrequests, hstarted, left_append, left_startedBy]
      omega
    | close | advance _ | idle => exact Nat.le_trans ih (Nat.le_add_left _ _)

theorem left_within (n : Nat) (turns : Turns α) :
    (turns.requestsWithin n).length + (turns.waitingAfter n).left ≤ turns.left := by
  induction n generalizing turns with
  | zero => simp [requestsWithin, waitingAfter]
  | succ n ih =>
    have hfirst := turns.left_started
    have hrest := ih turns.started
    rw [requestsWithin, waitingAfter, List.length_append]
    omega

def ofAsks (asks : List (Place × Request)) : Turns α :=
  asks.map fun a => (a.1, .ask a.2)

theorem requestsWithin_nil (n : Nat) : requestsWithin n ([] : Turns α) = [] := by
  induction n with
  | zero => rfl
  | succ n ih => exact ih

theorem waitingAfter_nil (n : Nat) : waitingAfter n ([] : Turns α) = [] := by
  induction n with
  | zero => rfl
  | succ n ih => exact ih

/-- Questions that come up at the same time have all come up after one turn. -/
theorem within_ofAsks (n : Nat) (asks : List (Place × Request)) :
    requestsWithin (n + 1) (ofAsks (α := α) asks) = asks ∧
      waitingAfter (n + 1) (ofAsks (α := α) asks) = [] := by
  have hrequests : requests (ofAsks (α := α) asks) = asks := by
    simp [requests, ofAsks, List.filterMap_map]
  have hstarted : started (ofAsks (α := α) asks) = [] := by
    rw [started, ofAsks, List.flatMap_map]
    exact List.flatMap_eq_nil_iff.2 fun _ _ => rfl
  rw [requestsWithin, waitingAfter, hrequests, hstarted, requestsWithin_nil, waitingAfter_nil,
    List.append_nil]
  exact ⟨rfl, rfl⟩

end Turns

namespace Line

open Act (Keeps Leads)

variable {α : Type}

/-- From one state of a line to another only messages with the given request were sent. -/
def Utters (request : Request) (l l' : Line α) : Prop :=
  ∃ sent : List Post, l'.journal.posts = sent.reverse ++ l.journal.posts ∧
    ∀ p ∈ sent, p.request = request

instance (request : Request) : Std.Refl (Utters (α := α) request) where
  refl _ := ⟨[], rfl, fun _ h => absurd h List.not_mem_nil⟩

instance (request : Request) : IsTrans (Line α) (Utters request) where
  trans := by
    rintro l l' l'' ⟨sent, hposts, hsent⟩ ⟨more, hposts', hmore⟩
    refine ⟨sent ++ more, ?_, List.forall_mem_append.2 ⟨hsent, hmore⟩⟩
    rw [hposts', hposts, List.reverse_append, List.append_assoc]

theorem utters_of_keeps {β : Type} {x : Act (Line α) β} (request : Request)
    (h : Keeps (fun l : Line α => l.journal.posts) x) : Leads (Utters request) x :=
  fun l => ⟨[], h l, fun _ h => absurd h List.not_mem_nil⟩

/-- From one state of a line to another the given requests were served one after the other, each with
its own messages. -/
structure Serves (l : Line α) (services : List Service) (l' : Line α) : Prop where
  posts : l'.journal.posts = (services.flatMap (·.sent)).reverse ++ l.journal.posts
  own : ∀ s ∈ services, ∀ p ∈ s.sent, p.request = s.request

theorem serves_nil {l l' : Line α} (h : l'.journal.posts = l.journal.posts) : Serves l [] l' :=
  ⟨h, fun _ h => absurd h List.not_mem_nil⟩

theorem Serves.cons {l l' l'' : Line α} {s : Service} {services : List Service}
    (hposts : l'.journal.posts = s.sent.reverse ++ l.journal.posts)
    (hown : ∀ p ∈ s.sent, p.request = s.request) (h : Serves l' services l'') :
    Serves l (s :: services) l'' := by
  refine ⟨?_, List.forall_mem_cons.2 ⟨hown, h.own⟩⟩
  rw [h.posts, hposts, List.flatMap_cons, List.reverse_append, List.append_assoc]

theorem Serves.of_posts {l₀ l l' : Line α} {services : List Service} (h : Serves l services l')
    (hposts : l.journal.posts = l₀.journal.posts) : Serves l₀ services l' :=
  ⟨h.posts.trans (by rw [hposts]), h.own⟩

variable [Seconds α] {out : Outside α}

theorem perform_keeps_posts (t : Errand α) : Keeps (fun l : Line α => l.journal.posts) (perform t) := by
  cases t with
  | close => exact close_keeps_posts
  | advance seconds => exact fun _ => rfl
  | ask _ | all _ | idle => exact .pure _

theorem go_perform (t : Errand α) (l : Line α) : ((perform t).go l).1 = .ok () := by
  cases t with
  | close =>
    obtain ⟨l', h⟩ := go_close l
    rw [perform, h]
  | advance _ | ask _ | all _ | idle => rfl

/-- Whoever is waiting takes a turn, and nothing is sent. -/
theorem go_performAll (turns : Turns α) (l : Line α) :
    ∃ l', (performAll turns).go l = (.ok (), l') ∧ l'.journal.posts = l.journal.posts := by
  induction turns generalizing l with
  | nil => exact ⟨l, rfl, rfl⟩
  | cons head rest ih =>
    obtain ⟨l', hgo, hposts⟩ := ih ((perform head.2).go l).2
    refine ⟨l', ?_, hposts.trans (perform_keeps_posts head.2 l)⟩
    change (perform head.2 >>= fun _ => performAll rest).go l = _
    rw [Act.go_bind_of_ok (go_perform head.2 l)]
    exact hgo

theorem keeps_posts_performAll (turns : Turns α) :
    Keeps (fun l : Line α => l.journal.posts) (performAll turns) := by
  intro l
  obtain ⟨l', hgo, hposts⟩ := go_performAll turns l
  rw [hgo]
  exact hposts

theorem utters_askAmid {amid : Act (Line α) Unit} (hamid : Keeps (fun l : Line α => l.journal.posts) amid)
    (request : Request) : Leads (Utters request) (askAmid out amid request) := by
  have hwriting : ∀ {β : Type} {x : Act (Journal α) β}, Keeps (·.posts) x →
      Leads (Utters request) (writing x) :=
    fun h => utters_of_keeps request fun l => h l.journal
  have hrests : Rests out (Utters request) :=
    ⟨fun _ _ => hwriting fun _ => rfl, hwriting fun _ => rfl, fun _ => hwriting fun _ => rfl⟩
  refine leads_askAmid hrests ?_ fun attempt url => ?_
  · exact leads_connect (fun _ => hwriting fun _ => rfl) (utters_of_keeps request fun _ => rfl)
  · refine hrests.tryUrl (fun l _ _ _ => ⟨[], rfl, fun _ h => absurd h List.not_mem_nil⟩)
      (fun id l => ?_) (utters_of_keeps request hamid)
    exact ⟨[⟨url, request, id⟩], rfl, fun p hp => by rw [List.mem_singleton.1 hp]⟩

/-- A request sends its own messages only, whoever takes turns meanwhile. -/
theorem go_askAmong (request : Request) (turns : Turns α) (l : Line α) :
    ∃ r n l', (askAmong out request turns).go l = (.ok (r, n), l') ∧ Utters request l l' := by
  let amid : Act (Line α) Unit := do
    let n := (← Act.state).journal.posts.length - l.journal.posts.length - 1
    performAll (turns.waitingAfter n)
  have hamid : Keeps (fun l : Line α => l.journal.posts) amid :=
    .bind .state fun _ => keeps_posts_performAll _
  exact ⟨_, _, _, rfl, utters_askAmid hamid request l⟩

/-- How turns are served from a state of a line on, when some requests have waited for it: one request
after the other, those that have waited in their order before all others, and each of them once. -/
structure Served (waiting : List (Place × Request)) (turns : Turns α) (services : List Service)
    (l l' : Line α) : Prop where
  serves : Serves l services l'
  asked : ∃ later, services.map (fun s => (s.place, s.request)) = waiting ++ later ∧
    later.Perm turns.asked

omit [Seconds α] in
/-- A request that has waited is served while everyone else has had `n + 1` turns. -/
theorem Served.after_waiting {waiting : List (Place × Request)} {turns : Turns α} {n : Nat} {s : Service}
    {services : List Service} {l l₁ l' : Line α}
    (hposts : l₁.journal.posts = s.sent.reverse ++ l.journal.posts)
    (hown : ∀ p ∈ s.sent, p.request = s.request)
    (h : Served (waiting ++ turns.requestsWithin (n + 1)) (turns.waitingAfter (n + 1)) services l₁ l') :
    Served ((s.place, s.request) :: waiting) turns (s :: services) l l' := by
  obtain ⟨later, hlater, hperm⟩ := h.asked
  refine ⟨.cons hposts hown h.serves, turns.requestsWithin (n + 1) ++ later, ?_, ?_⟩
  · rw [List.map_cons, hlater, List.append_assoc]
    rfl
  · exact (hperm.append_left _).trans (turns.asked_perm_within (n + 1)).symm

omit [Seconds α] in
/-- A request whose turn it is while nobody has waited is served while the others have had `n` turns. -/
theorem Served.after_turn {turns : Turns α} {n : Nat} {s : Service} {services : List Service}
    {l l₁ l' : Line α} (hposts : l₁.journal.posts = s.sent.reverse ++ l.journal.posts)
    (hown : ∀ p ∈ s.sent, p.request = s.request)
    (h : Served (turns.requestsWithin n) (turns.waitingAfter n) services l₁ l') :
    Served [] ((s.place, .ask s.request) :: turns) (s :: services) l l' := by
  obtain ⟨later, hlater, hperm⟩ := h.asked
  refine ⟨.cons hposts hown h.serves, _, rfl, ?_⟩
  rw [hlater]
  exact ((hperm.append_left _).trans (turns.asked_perm_within n).symm).cons _

omit [Seconds α] in
/-- Errands that start others make room for them behind all that are waiting for a turn. -/
theorem Served.after_start {turns : Turns α} {place : Place} {errands : List (Errand α)}
    {services : List Service} {l l' : Line α}
    (h : Served [] (turns ++ Turns.startedBy place errands) services l l') :
    Served [] ((place, .all errands) :: turns) services l l' := by
  obtain ⟨later, hlater, hperm⟩ := h.asked
  refine ⟨h.serves, later, hlater, hperm.trans ?_⟩
  rw [Turns.asked_all, Turns.asked_append, Turns.asked_startedBy]
  exact List.perm_append_comm

theorem Served.after_other {turns : Turns α} {place : Place} {t : Errand α} {services : List Service}
    {l l' : Line α} (hasked : t.asked place = [])
    (h : Served [] turns services ((perform t).go l).2 l') :
    Served [] ((place, t) :: turns) services l l' := by
  refine ⟨h.serves.of_posts (perform_keeps_posts t l), ?_⟩
  have hturns : Turns.asked ((place, t) :: turns) = t.asked place ++ turns.asked := rfl
  rw [hturns, hasked]
  exact h.asked

theorem go_serve_waiting {fuel n : Nat} {place : Place} {request : Request}
    {waiting : List (Place × Request)} {turns : Turns α} {r : Except Failure Json} {outcomes : Outcomes}
    {l l₁ l₂ l' : Line α} (hperform : (performAll turns).go l = (.ok (), l₁))
    (hask : (askAmong out request turns.started).go l₁ = (.ok (r, n), l₂))
    (hserve : (serve out fuel (waiting ++ turns.requestsWithin (n + 1))
      (turns.waitingAfter (n + 1))).go l₂ = (.ok outcomes, l')) :
    (serve out (fuel + 1) ((place, request) :: waiting) turns).go l =
      (.ok ((place, r) :: outcomes), l') := by
  rw [Turns.requestsWithin, ← List.append_assoc, Turns.waitingAfter] at hserve
  rw [serve, Act.go_bind, hperform]
  dsimp only
  rw [Act.go_bind, hask]
  dsimp only
  rw [Act.go_bind, hserve]
  rfl

theorem go_serve_ask {fuel n : Nat} {place : Place} {request : Request} {turns : Turns α}
    {r : Except Failure Json} {outcomes : Outcomes} {l l₁ l' : Line α}
    (hask : (askAmong out request turns).go l = (.ok (r, n), l₁))
    (hserve : (serve out fuel (turns.requestsWithin n) (turns.waitingAfter n)).go l₁ =
      (.ok outcomes, l')) :
    (serve out (fuel + 1) [] ((place, .ask request) :: turns)).go l =
      (.ok ((place, r) :: outcomes), l') := by
  rw [serve, Act.go_bind, hask]
  dsimp only
  rw [Act.go_bind, hserve]
  rfl

/-- Turns are served to their end when there is fuel for every one of them. -/
theorem go_serve (fuel : Nat) (waiting : List (Place × Request)) (turns : Turns α) (l : Line α)
    (hfuel : waiting.length + turns.left < fuel) :
    ∃ services l', (serve out fuel waiting turns).go l =
      (.ok (services.map fun s => (s.place, s.result)), l') ∧ Served waiting turns services l l' := by
  induction fuel generalizing waiting turns l with
  | zero => omega
  | succ fuel ih =>
    match waiting with
    | (place, request) :: waiting =>
      obtain ⟨l₁, hperform, hposts₁⟩ := go_performAll turns l
      obtain ⟨r, n, l₂, hask, sent, hposts, hown⟩ := @go_askAmong α _ out request turns.started l₁
      -- Whoever was waiting has had one turn, and as many more as replies were awaited.
      have hleft := turns.left_within (n + 1)
      obtain ⟨services, l', hserve, hserved⟩ := ih (waiting ++ turns.requestsWithin (n + 1))
        (turns.waitingAfter (n + 1)) l₂ (by
          rw [List.length_append]
          rw [List.length_cons] at hfuel
          omega)
      rw [hposts₁] at hposts
      let s : Service := ⟨place, request, r, sent⟩
      exact ⟨s :: services, l', go_serve_waiting hperform hask hserve,
        .after_waiting (s := s) hposts hown hserved⟩
    | [] =>
      cases turns with
      | nil => exact ⟨[], l, rfl, serves_nil rfl, [], rfl, .nil⟩
      | cons head turns =>
        obtain ⟨place, t⟩ := head
        rw [List.length_nil, Nat.zero_add, Turns.left_cons] at hfuel
        have hpos := t.turns_pos
        have hdone := ih [] turns ((perform t).go l).2 (by
          rw [List.length_nil]
          omega)
        cases t with
        | ask request =>
          obtain ⟨r, n, l₁, hask, sent, hposts, hown⟩ := @go_askAmong α _ out request turns l
          have hleft := Turns.left_within n turns
          obtain ⟨services, l', hserve, hserved⟩ :=
            ih (Turns.requestsWithin n turns) (Turns.waitingAfter n turns) l₁ (by omega)
          let s : Service := ⟨place, request, r, sent⟩
          exact ⟨s :: services, l', go_serve_ask hask hserve, .after_turn (s := s) hposts hown hserved⟩
        | all errands =>
          rw [show (Errand.all errands).turns = Errand.turnsOf errands + 1 from rfl] at hfuel
          obtain ⟨services, l', hserve, hserved⟩ := ih [] (turns ++ Turns.startedBy place errands) l (by
            rw [Turns.left_append, Turns.left_startedBy, List.length_nil]
            omega)
          exact ⟨services, l', hserve, hserved.after_start⟩
        | close | advance _ | idle =>
          obtain ⟨services, l', hserve, hserved⟩ := hdone
          exact ⟨services, l', (Act.go_bind_of_ok (go_perform _ l)).trans hserve, hserved.after_other rfl⟩

/-- However errands share a client, every request among them is served once, and all messages of a
request come before those of the next one. -/
theorem together_serves (errands : List (Errand α)) (l : Line α) :
    ∃ services l', (together out errands).go l =
        (.ok (services.map fun s => (s.place, s.result)), l') ∧
      (services.map fun s => (s.place, s.request)).Perm (Errand.askedFrom [] 0 errands) ∧
      (services.map (·.place)).Nodup ∧ Serves l services l' := by
  obtain ⟨services, l', hgo, hserved⟩ := @go_serve α _ out (Errand.turnsOf errands + 1) []
    (Turns.startedBy [] errands) l (by rw [Turns.left_startedBy]; simp)
  obtain ⟨later, hlater, hperm⟩ := hserved.asked
  rw [Turns.asked_startedBy, ← show services.map _ = later from hlater] at hperm
  refine ⟨services, l', hgo, hperm, ?_, hserved.serves⟩
  have hplaces := hperm.map (·.1)
  rw [List.map_map] at hplaces
  exact hplaces.nodup_iff.2 (Errand.nodup_askedFrom [] 0 errands)

theorem go_serve_asks (fuel : Nat) (asks : List (Place × Request)) (l : Line α)
    (hfuel : asks.length < fuel) :
    ∃ services l', (serve out fuel [] (Turns.ofAsks asks)).go l =
        (.ok (services.map fun s => (s.place, s.result)), l') ∧
      services.map (fun s => (s.place, s.request)) = asks ∧ Serves l services l' := by
  induction asks generalizing fuel l with
  | nil =>
    obtain ⟨fuel, rfl⟩ : ∃ n, fuel = n + 1 := ⟨fuel - 1, by rw [List.length_nil] at hfuel; omega⟩
    exact ⟨[], l, rfl, rfl, serves_nil rfl⟩
  | cons head asks ih =>
    obtain ⟨place, request⟩ := head
    rw [List.length_cons] at hfuel
    obtain ⟨fuel, rfl⟩ : ∃ n, fuel = n + 1 := ⟨fuel - 1, by omega⟩
    obtain ⟨r, n, l₁, hask, sent, hposts, hown⟩ := @go_askAmong α _ out request (Turns.ofAsks asks) l
    let s : Service := ⟨place, request, r, sent⟩
    cases n with
    | zero =>
      obtain ⟨services, l', hserve, hasked, hserves⟩ := ih fuel l₁ (by omega)
      exact ⟨s :: services, l', go_serve_ask hask hserve, by rw [List.map_cons, hasked],
        .cons (s := s) hposts hown hserves⟩
    | succ n =>
      -- All others wait from now on, and those that wait are served in their order.
      obtain ⟨hwithin, hafter⟩ := @Turns.within_ofAsks α n asks
      obtain ⟨services, l', hserve, hserved⟩ := @go_serve α _ out fuel asks [] l₁ (by
        rw [show Turns.left ([] : Turns α) = 0 from rfl]
        omega)
      obtain ⟨later, hlater, hperm⟩ := hserved.asked
      obtain rfl : later = [] := hperm.eq_nil
      refine ⟨s :: services, l', go_serve_ask hask ?_, ?_, .cons (s := s) hposts hown hserved.serves⟩
      · change (serve out fuel ((Turns.ofAsks asks).requestsWithin (n + 1))
          ((Turns.ofAsks asks).waitingAfter (n + 1))).go l₁ = _
        rw [hwithin, hafter, hserve]
      · rw [List.map_cons, hlater, List.append_nil]

/-- Questions that come up at the same time are answered in their order. -/
theorem together_in_order (requests : List Request) (l : Line α) :
    ∃ services l', (together out (requests.map .ask)).go l =
        (.ok (services.map fun s => (s.place, s.result)), l') ∧
      services.map (·.request) = requests ∧ Serves l services l' := by
  let asks : List (Place × Request) := requests.zipIdx.map fun (request, i) => ([i], request)
  have hturns : Turns.startedBy [] (requests.map (.ask (α := α))) = Turns.ofAsks asks := by
    simp only [Turns.startedBy, Turns.ofAsks, asks, List.zipIdx_map, List.map_map]
    rfl
  have hfuel : asks.length < Errand.turnsOf (requests.map (.ask (α := α))) + 1 := by
    rw [Errand.turnsOf_asks, List.length_map, List.length_zipIdx]
    exact Nat.lt_succ_self _
  obtain ⟨services, l', hgo, hasked, hserves⟩ := @go_serve_asks α _ out _ asks l hfuel
  refine ⟨services, l', ?_, ?_, hserves⟩
  · rw [together, hturns, hgo]
  · have hrequests := congrArg (List.map (·.2)) hasked
    rw [List.map_map] at hrequests
    refine hrequests.trans ?_
    simp only [asks, List.map_map]
    exact List.zipIdx_map_fst 0 requests

end Line

end ProxyCensus
