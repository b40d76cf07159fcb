import ProxyCensus.Proofs.Job.ResolveNodes
import ProxyCensus.Proofs.Json.Depth

/-!
# Outcomes of resolutions

Main statements: whatever the nodes reply, a resolution that finds something returns the pattern and
the method of its match with distinct lower-case addresses, none of them zero. For a match that was
detected in code a resolution returns whatever the nodes reply, exactly when the code itself holds the
address or the client does not ask at all; as long as no reply nests too deep to be read, exactly when
the code holds the address or the client asks in no more rounds than there are pauses; and with so few
rounds it fails exactly when a reply to one of its messages nests too deep.
-/

namespace ProxyCensus

namespace Address

/-- A marker and forty digits in lower case. -/
def Lowercase (address : String) : Prop :=
  ∃ digits : List Char, address = String.ofList ('0' :: 'x' :: digits) ∧ digits.length = 40 ∧
    ∀ c ∈ digits, c ∈ "0123456789abcdef".toList

theorem digit_mem {n : Nat} (h : n < 16) : Hex.digit n ∈ "0123456789abcdef".toList := by
  have hall : ∀ n : Fin 16, Hex.digit n ∈ "0123456789abcdef".toList := by decide
  exact hall ⟨n, h⟩

theorem IsNormal.lowercase {address : String} (h : IsNormal address) : Lowercase address := by
  obtain ⟨values, ⟨hlength, hlt⟩, rfl⟩ := h
  refine ⟨values.map Hex.digit, rfl, by simpa using hlength, fun c hc => ?_⟩
  obtain ⟨n, hn, rfl⟩ := List.mem_map.1 hc
  exact digit_mem (hlt n hn)

end Address

theorem Delivery.Answers.plain {d : Delivery} {v : Json} (h : d.Answers v) : d.Plain := by
  cases h with
  | result hv hnull => exact .http 200 _

theorem Delivery.Refuses.plain {d : Delivery} (h : d.Refuses) : d.Plain := by
  cases h <;> exact .http 200 _

variable {α : Type} [Seconds α]

/-- Nodes that reply the same to everything. -/
def Outside.replying (d : Delivery) : Outside α where
  reply _ _ := ⟨Seconds.hundredths 0, d⟩
  jitter _ := Seconds.hundredths 0
  stopwatch _ := .whole 0
  date _ := 0
  stop _ := false
  disturbance _ := none
  rows := []
  codes _ _ := []
  flushFault _ := none

/-- On nodes that always give the same answer a request returns it. -/
theorem Line.go_ask_of_answers {out : Outside α} {v : Json}
    (hout : ∀ sent p, (out.reply sent p).delivery.Answers v) {l : Line α} {urls : List Json}
    (hends : l.client.endpoints = .list urls) (hurls : urls ≠ []) (hrounds : 0 < l.client.rounds)
    (request : Request) : ((Line.ask out request).go l).1 = .ok v := by
  let t : Trial α := ⟨out, request, urls, l.client.rounds, l⟩
  have hanswers : ∀ i, (t.delivery i).Answers v := fun i => hout _ _
  have hverdict : ∀ i, t.verdict i = .answer v := fun i => Rpc.judge_of_answers (hanswers i)
  obtain ⟨n, hdecided⟩ : ∃ n, t.Decided (Pacing.Paced α) n ((Line.ask out request).go l).1
      ((Line.ask out request).go l).2 :=
    Trial.ask_decided (t := t) (fun sent p => (hout sent p).plain) hurls hends rfl
  generalize ((Line.ask out request).go l).1 = r at hdecided
  cases hdecided.ends with
  | @answered i v' hi h =>
    have hfirst : t.verdict i = .answer v' := Rpc.judge_of_answers h
    rw [hverdict i] at hfirst
    rw [Rpc.Verdict.answer.inj hfirst]
  | @failed i f hi h =>
    have hfails : t.verdict i = .refuse f := Rpc.judge_of_fails h
    cases (hverdict i).symm.trans hfails
  | @stalled i hi h hdue hp => exact absurd (hanswers i) (h.answers v)
  | exhausted h =>
    have hpos : 0 < t.limit := by
      apply Nat.mul_pos
      · exact Int.lt_toNat.2 hrounds
      · exact List.length_pos_iff.2 hurls
    exact absurd (hanswers 0) ((h 0 hpos).1.answers v)

theorem Line.go_ask_replying {result : Json} (hresult : result ≠ .null) {l : Line α} {urls : List Json}
    (hends : l.client.endpoints = .list urls) (hurls : urls ≠ []) (hrounds : 0 < l.client.rounds)
    (request : Request) :
    ((Line.ask (.replying (.http 200 (.document (.obj [("result", result)])))) request).go l).1 =
      .ok result := by
  refine Line.go_ask_of_answers (fun _ _ => .result rfl ?_) hends hurls hrounds request
  exact hresult

/-- On nodes that refuse every request a request fails, in however many rounds. -/
theorem Line.go_ask_of_refuses {out : Outside α} (hout : ∀ sent p, (out.reply sent p).delivery.Refuses)
    {l : Line α} {urls : List Json} (hends : l.client.endpoints = .list urls) (hurls : urls ≠ [])
    (request : Request) : ∃ m, ((Line.ask out request).go l).1 = .error (.request m) := by
  obtain ⟨n, hdecided⟩ := Trial.ask_decided (t := ⟨out, request, urls, l.client.rounds, l⟩)
    (fun sent p => (hout sent p).plain) hurls hends rfl
  generalize ((Line.ask out request).go l).1 = r at hdecided
  cases hdecided.ends with
  | @answered i v hi h =>
    have hanswer : Rpc.judge request.method "" _ = .answer v := Rpc.judge_of_answers h
    obtain ⟨m, hm⟩ : ∃ m, Rpc.judge request.method "" _ = .refuse (.request m) :=
      Rpc.judge_of_refuses (hout _ _)
    cases hanswer.symm.trans hm
  | @failed i f hi h =>
    obtain ⟨m, hm⟩ : ∃ m, Rpc.judge request.method _ _ = .refuse (.request m) :=
      Rpc.judge_of_refuses (hout _ _)
    have hfails : Rpc.judge request.method _ _ = .refuse f := Rpc.judge_of_fails h
    exact ⟨m, congrArg Except.error (Rpc.Verdict.refuse.inj (hfails.symm.trans hm))⟩
  | stalled hi h hdue hp => exact absurd (hout _ _) h.refuses
  | exhausted h => exact ⟨_, rfl⟩

namespace Resolution

/-- Whatever the nodes reply, what a resolution returns has the pattern of its match and the method
of that pattern. Its addresses are distinct, in lower case and not zero, and there is exactly one
unless the pattern is that of a diamond. -/
theorem resolved_lowercase (out : Outside α) (chain : Option Int) (m : Match) (address : String)
    (l : Line α) {r : Resolved} (h : ((resolve out chain m address).go l).1 = .ok (some r)) :
    r.pattern = m.pattern ∧ r.method = (Catalog.row m.pattern).method ∧
      r.addresses ≠ [] ∧ r.addresses.Nodup ∧
      (∀ a ∈ r.addresses, Address.Lowercase a ∧ a ≠ Address.zero) ∧
      (m.pattern ≠ .diamond → r.addresses.length = 1) := by
  have hshaped : Shaped m r := resolve_yields out chain m address l (some r) h r rfl
  refine ⟨hshaped.pattern, hshaped.method, hshaped.found, hshaped.nodup, fun a ha => ?_, fun hm => ?_⟩
  · obtain ⟨hnormal, hne⟩ := hshaped.genuine a ha
    exact ⟨hnormal.lowercase, hne⟩
  · have hmost := hshaped.single hm
    have hsome := List.length_pos_iff.2 hshaped.found
    omega

theorem resolved_lowercase_of_slot :
    let word := String.ofList ('0' :: 'x' :: Hex.ofNat 64 (2 ^ 200 + 0xabc))
    let m : Match := { pattern := .eip1967, slot := some "0x0" }
    let l : Line Rat := ⟨⟨.list [.str "http://rpc"], 3, 30, 0, 0, 0, .none⟩, { clock := 0 }⟩
    let out : Outside Rat := .replying (.http 200 (.document (.obj [("result", .str word)])))
    ∃ r, ((resolve out (some 1) m "0x1").go l).1 = .ok (some r) ∧
      r.pattern = .eip1967 ∧ ∃ a, r.addresses = [a] ∧ Address.Lowercase a := by
  intro word m l out
  have hasked : ∀ request, ((Line.ask out request).go l).1 = .ok (.str word) := by
    intro request
    refine Line.go_ask_of_answers (fun _ _ => .result rfl ?_) rfl (List.cons_ne_nil _ _)
      (by decide) request
    exact Json.noConfusion
  obtain ⟨a, ha⟩ : ∃ a, Address.ofWord? word = some a :=
    Option.isSome_iff_exists.1 (by decide +kernel)
  have hslot : ((fromSlot out m "0x1").go l).1 = .ok (some a) := by
    change ((Line.ask out _ >>= fun answer => Act.lift (addressOfSlot answer)).go l).1 = _
    rw [Act.go_bind_of_ok (hasked _), ← ha]
    rfl
  have hfound : ((addresses out m "0x1").go l).1 = .ok [a] := by
    change ((fromSlot out m "0x1" >>= fun found => pure found.toList).go l).1 = _
    rw [Act.go_bind_of_ok hslot]
    rfl
  have hgo : ((resolve out (some 1) m "0x1").go l).1 =
      .ok (some ⟨.eip1967, .storageSlot, [a]⟩) := by
    unfold resolve
    dsimp only
    rw [Act.go_bind, Act.go_outcome, hfound]
    rfl
  obtain ⟨hpattern, -, -, -, hlower, -⟩ := resolved_lowercase out (some 1) m "0x1" l hgo
  exact ⟨_, hgo, hpattern, a, rfl, (hlower a (List.mem_singleton_self a)).1⟩

/-- A resolution of a match by a client with these addresses and rounds returns, however the network
fails, as long as all replies are of some kind. -/
def Returns (kind : Delivery → Prop) (urls : List Json) (rounds : Int) (m : Match) : Prop :=
  ∀ (out : Outside Float) (chain : Option Int) (address : String) (l : Line Float),
    (∀ sent p, kind (out.reply sent p).delivery) →
      l.client.endpoints = .list urls → l.client.rounds = rounds →
        ∃ found, ((resolve out chain m address).go l).1 = .ok found

/-- A response of a node whose body can be read as far as it nests, or a failure of the network. -/
def Shallow (d : Delivery) : Prop :=
  d.Plain ∧ ∀ reason, ¬ d.TooDeep reason

/-- With no more than 1024 rounds a resolution returns unless a reply to one of its messages nests too
deep, which no reply does when no message is sent. -/
theorem returns_of_le {out : Outside Float} (hplain : ∀ sent p, (out.reply sent p).delivery.Plain)
    {urls : List Json} (hurls : urls ≠ []) {l : Line Float} (hends : l.client.endpoints = .list urls)
    (hrounds : l.client.rounds ≤ 1024) (m : Match) (chain : Option Int) (address : String) :
    let go := (resolve out chain m address).go l
    ((∃ found, go.1 = .ok found) ↔ ¬ Line.Sunk out l go.2) ∧
      (Line.Sunk out l go.2 → 0 < l.client.rounds) := by
  intro go
  have hsteady : l.Steady out := by
    refine ⟨hplain, ⟨urls, hends, hurls⟩, fun round hround => Pacing.paced_float_iff.2 ?_⟩
    omega
  have hfails := resolve_fails out chain m address
  exact ⟨hfails.returns_iff hsteady, fun hsunk => (hfails.sunk l hsteady hsunk).1⟩

def fresh (urls : List Json) (rounds : Int) : Line Float :=
  ⟨⟨.list urls, rounds, 30, 0, 0, 0, .none⟩, { clock := 0 }⟩

/-- A match that takes a request is neither resolved nor left unresolved by a client that is hopeless on
nodes of some kind. -/
theorem not_returns_of_hopeless {kind : Delivery → Prop} {urls : List Json} {rounds : Int} {d : Delivery}
    (hd : kind d) (h : (fresh urls rounds).Hopeless (.replying d)) {m : Match} (hm : m.Asks) :
    ¬ Returns kind urls rounds m := by
  intro hreturns
  obtain ⟨found, hfound⟩ := hreturns (.replying d) none "0x0" (fresh urls rounds) (fun _ _ => hd) rfl rfl
  obtain ⟨f, -, hf⟩ := resolve_of_asks h hm none "0x0"
  cases hfound.symm.trans hf

/-- With more than 1024 rounds a match that takes a request is not resolved by a node that always
asks to slow down, and not left unresolved either. -/
theorem not_returns_of_lt {urls : List Json} (hurls : urls ≠ []) {rounds : Int}
    (hrounds : 1024 < rounds) {m : Match} (hm : m.Asks) : ¬ Returns Shallow urls rounds m := by
  have hshallow : Shallow (.http 429 .empty) := ⟨.http 429 _, by rintro reason ⟨⟩⟩
  refine not_returns_of_hopeless hshallow ?_ hm
  refine Line.hopeless_of_busy (fun _ _ => .intro _) rfl hurls ⟨1025, by decide, ?_, ?_⟩
  · change 1025 ≤ rounds.toNat
    omega
  · intro hpaced
    exact absurd (Pacing.paced_float_iff.1 hpaced) (by decide)

/-- With any rounds at all a match that takes a request is not resolved by a node that replies with
nothing but opening brackets, and not left unresolved either. -/
theorem not_returns_of_pos {urls : List Json} (hurls : urls ≠ []) {rounds : Int} (hrounds : 0 < rounds)
    {m : Match} (hm : m.Asks) : ¬ Returns Delivery.Plain urls rounds m := by
  obtain ⟨reason, hbody⟩ := (Body.ofTextWithin_brackets_iff Json.room (Json.room + 1)).2
    (Nat.lt_succ_self _)
  have hdeep : Delivery.TooDeep
      (.http 200 (Body.ofText (String.ofList (List.replicate (Json.room + 1) '[')))) reason := by
    rw [Body.ofText, hbody]
    exact .intro reason
  exact not_returns_of_hopeless hdeep.plain
    (Line.hopeless_of_tooDeep (fun _ _ => ⟨reason, hdeep⟩) rfl hurls hrounds) hm

/-- For a match that was detected in code a resolution returns, whatever the nodes reply, exactly when
the code is a clone or there are no rounds; and when no reply nests too deep, exactly when the code is a
clone or there are no more than 1024 rounds. With so few rounds a resolution returns exactly when none of
its messages was replied to with a body that nests too deep. -/
theorem returns_detected_iff {urls : List Json} (hurls : urls ≠ []) (rounds : Int) {text : String}
    {found : List Match} (hfound : Detection.inText Catalog.builtIn text = .ok found) {m : Match}
    (hm : m ∈ found) :
    (Returns Delivery.Plain urls rounds m ↔ m.pattern = .fixed ∨ rounds ≤ 0) ∧
      (Returns Shallow urls rounds m ↔ m.pattern = .fixed ∨ rounds ≤ 1024) ∧
      (rounds ≤ 1024 → ∀ (out : Outside Float) (chain : Option Int) (address : String) (l : Line Float),
        (∀ sent p, (out.reply sent p).delivery.Plain) → l.client.endpoints = .list urls →
          l.client.rounds = rounds → ((∃ found, ((resolve out chain m address).go l).1 = .ok found) ↔
            ¬ Line.Sunk out l ((resolve out chain m address).go l).2)) := by
  have hasks : m.pattern ≠ .fixed → m.Asks := Detection.asks_of_inText hfound hm
  refine ⟨⟨fun hreturns => ?_, ?_⟩, ⟨fun hreturns => ?_, ?_⟩, ?_⟩
  · by_contra hneither
    rw [not_or, Int.not_le] at hneither
    exact not_returns_of_pos hurls hneither.2 (hasks hneither.1) hreturns
  · rintro (hfixed | hrounds) out chain address l hplain hends rfl
    · exact resolve_of_fixed hfixed chain address
    · obtain ⟨hreturns, hpos⟩ := returns_of_le hplain hurls hends (by omega) m chain address
      exact hreturns.2 fun hsunk => absurd (hpos hsunk) (by omega)
  · by_contra hneither
    rw [not_or, Int.not_le] at hneither
    exact not_returns_of_lt hurls hneither.2 (hasks hneither.1) hreturns
  · rintro (hfixed | hrounds) out chain address l hkind hends rfl
    · exact resolve_of_fixed hfixed chain address
    · obtain ⟨hreturns, -⟩ :=
        returns_of_le (fun sent p => (hkind sent p).1) hurls hends hrounds m chain address
      exact hreturns.2 (Outside.not_sinks_of_shallow fun sent p => (hkind sent p).2)
  · rintro hrounds out chain address l hplain hends rfl
    exact (returns_of_le hplain hurls hends hrounds m chain address).1

theorem returns_detected_up_to_1024 :
    let m : Match := { pattern := .legacyUpgradeable, selector := some "0x5c60da1b" }
    Detection.inText Catalog.builtIn "0x635c60da1bf4" = .ok [m] ∧
      Returns Shallow [.str "http://rpc"] 1024 m ∧ ¬ Returns Shallow [.str "http://rpc"] 1026 m ∧
      Returns Delivery.Plain [.str "http://rpc"] 0 m ∧
      ¬ Returns Delivery.Plain [.str "http://rpc"] 3 m := by
  intro m
  have hfound : Detection.inText Catalog.builtIn "0x635c60da1bf4" = .ok [m] :=
    eq_ok_of_toOption (by decide +kernel)
  have hfixed : m.pattern ≠ .fixed := by decide
  have hiff := fun rounds => @returns_detected_iff [.str "http://rpc"] (List.cons_ne_nil _ _) rounds _ _
    hfound m (List.mem_singleton_self m)
  exact ⟨hfound, (hiff 1024).2.1.2 (.inr (by decide)),
    fun h => ((hiff 1026).2.1.1 h).elim hfixed (by decide), (hiff 0).1.2 (.inr (by decide)),
    fun h => ((hiff 3).1.1 h).elim hfixed (by decide)⟩

end Resolution

end ProxyCensus
