/-
# A set-up from its start to its return

`initializeProducers` and `initializeConsumers` (`client.go`) go over the enabled
entries in order.  For each of them `createProducer` or `createConsumer` opens a
channel, makes its requests on it, and registers it; the first error ends the loop.

`runSetup` runs a set-up alone, step by step as `SetupStep.exec` does, and keeps the
list of the steps it has taken, so that what was requested on a channel can be read
off.  `runSetup_creates` says once what such a run leaves behind, whatever the broker
answers: a prefix of the entries is done, each on a fresh channel and registered in
order, and the channel of the entry that failed, if it had one, is closed.
-/

import LynxRabbit.Reconnection.Progress

namespace LynxRabbit

/-- What a set-up returns, and the steps it has taken. -/
structure SetupRun where
  client : Client
  err : Option GoError
  taken : List SetupStep

/-- A set-up run alone, each step under the next choice; `none` when it panics or
the choices end first. -/
def runSetup : Client → List SetupStep → List Choice → Option SetupRun
  | s, [], _ => some ⟨s, none, []⟩
  | _, _ :: _, [] => none
  | s, st :: rest, o :: os =>
    match st.exec s o with
    | .next s' new =>
      (runSetup s' (new ++ rest) os).map fun r => ⟨r.client, r.err, st :: r.taken⟩
    | .fail s' e => some ⟨s', some e, []⟩
    | .panic => none

/-- The steps an entry has left once its channel is open. -/
def SetupStep.body : SetupStep → Channel → List SetupStep
  | .createProducer p, ch => p.onChannel ch
  | .createConsumer c, ch => c.onChannel ch
  | _, _ => []

/-- The step that registers a channel under the name of an entry. -/
def Entry.register (ch : Channel) : Entry → SetupStep
  | .producer name => .registerProducer name ch
  | .consumer name => .registerConsumer name ch

/-- A channel under the name of an entry, in the map of the entry. -/
def Client.put (s : Client) (e : Entry) (ch : Channel) : Client :=
  match e with
  | .producer name => { s with producers := s.producers.insert name (some ch) }
  | .consumer name => { s with consumers := s.consumers.insert name (some ch) }

/-- Several of them, in order. -/
def Client.putAll (s : Client) (es : List (Entry × Channel)) : Client :=
  es.foldl (fun s e => s.put e.1 e.2) s

/-- What a step registers. -/
def SetupStep.registration : SetupStep → Option (Entry × Channel)
  | .registerProducer name ch => some (.producer name, ch)
  | .registerConsumer name ch => some (.consumer name, ch)
  | _ => none

/-- What a set-up has registered, in order. -/
def SetupRun.registered (r : SetupRun) : List (Entry × Channel) :=
  r.taken.filterMap SetupStep.registration

/-! ### One entry -/

/-- **The steps on an open channel**: requests, and then the registration. -/
theorem SetupStep.body_eq {st : SetupStep} (h : st.opens = true) :
    ∃ e rs, st.entry? = some e ∧
      ∀ ch, st.body ch = List.map (fun r => .request r ch) rs ++ [e.register ch] := by
  cases st with
  | createProducer p =>
      by_cases hx : p.exchange = ""
      · exact ⟨.producer p.name, [], rfl, fun ch => by
          simp [SetupStep.body, Producer.onChannel, hx, Entry.register]⟩
      · exact ⟨.producer p.name, [.exchangeDeclare p, .confirm p], rfl, fun ch => by
          simp [SetupStep.body, Producer.onChannel, hx, Entry.register]⟩
  | createConsumer c =>
      refine ⟨.consumer c.name, (if c.prefetchCount > 0 then [.qos c] else []) ++
        (if c.queue ≠ "" then [.queueDeclare c] else []), rfl, fun ch => ?_⟩
      simp only [SetupStep.body, Consumer.onChannel, Entry.register]
      split_ifs <;> rfl
  | _ => cases h

/-- A request that succeeds changes nothing on the client. -/
theorem exec_request {s s₁ : Client} {o : Choice} {r : Request} {ch : Channel}
    {new : List SetupStep} (h : (SetupStep.request r ch).exec s o = .next s₁ new) :
    s₁ = s ∧ new = [] := by
  rw [SetupStep.exec] at h
  split at h <;> cases h
  exact ⟨rfl, rfl⟩

/-- A request that fails closes its channel. -/
theorem exec_request_fail {s s₁ : Client} {o : Choice} {r : Request} {ch : Channel} {e : GoError}
    (h : (SetupStep.request r ch).exec s o = .fail s₁ e) :
    s₁ = { s with amqp := s.amqp.closeChannel ch } := by
  rw [SetupStep.exec] at h
  split at h <;> cases h
  rfl

theorem exec_register (s : Client) (o : Choice) (e : Entry) (ch : Channel) :
    (e.register ch).exec s o = .next (s.put e ch) [] := by
  cases e <;> rfl

@[simp] theorem Entry.registration_register (e : Entry) (ch : Channel) :
    (e.register ch).registration = some (e, ch) := by
  cases e <;> rfl

/-- Requests register nothing. -/
theorem filterMap_registration_requests (rs : List Request) (ch : Channel) :
    (List.map (fun r => SetupStep.request r ch) rs).filterMap SetupStep.registration = [] := by
  induction rs with
  | nil => rfl
  | cons r rs ih => exact ih

theorem SetupStep.registration_of_opens {st : SetupStep} (h : st.opens = true) :
    st.registration = none := by
  cases st with
  | createProducer p => rfl
  | createConsumer c => rfl
  | _ => cases h

/-- **The call that opens the channel of an entry** takes the next channel, or leaves
the client as it was. -/
theorem SetupStep.exec_create {s : Client} {o : Choice} {st : SetupStep} (h : st.opens = true) :
    (∃ c, st.exec s o = .next { s with amqp := { s.amqp with channels := s.amqp.channels + 1 } }
        (st.body ⟨s.amqp.channels, c⟩)) ∨
      (∃ e, st.exec s o = .fail s e) ∨ st.exec s o = .panic := by
  cases hx : st.exec s o with
  | next s' todo =>
      refine .inl ?_
      rcases SetupStep.exec_next hx with ⟨c, -, -, rfl, ⟨p, rfl, rfl⟩ | ⟨k, rfl, rfl⟩⟩ |
        ⟨_, _, rfl, -, -⟩ | ⟨_, _, rfl, -, -⟩ | ⟨_, _, rfl, -, -⟩
      · exact ⟨c, rfl⟩
      · exact ⟨c, rfl⟩
      all_goals cases h
  | fail s' e =>
      refine .inr (.inl ⟨e, ?_⟩)
      cases st with
      | createProducer p => rw [Client.openChannel_fail hx]
      | createConsumer c => rw [Client.openChannel_fail hx]
      | _ => cases h
  | panic => exact .inr (.inr rfl)

/-- **The rest of an entry**: every request succeeds and the channel is registered, or
one of them fails and the channel is closed. -/
theorem runSetup_requests {rs : List Request} {ch : Channel} {e : Entry} {rest : List SetupStep}
    {s : Client} {os : List Choice} {r : SetupRun}
    (h : runSetup s (List.map (fun q => .request q ch) rs ++ e.register ch :: rest) os = some r) :
    (∃ os' r', runSetup (s.put e ch) rest os' = some r' ∧
        r = ⟨r'.client, r'.err,
          List.map (fun q => .request q ch) rs ++ e.register ch :: r'.taken⟩) ∨
      ∃ err done, r = ⟨{ s with amqp := s.amqp.closeChannel ch }, some err,
        List.map (fun q => .request q ch) done⟩ := by
  induction rs generalizing os r with
  | nil =>
      cases os with
      | nil => cases h
      | cons o os =>
          simp only [List.map_nil, List.nil_append, runSetup, exec_register] at h
          obtain ⟨r', hr', rfl⟩ := Option.map_eq_some_iff.1 h
          exact .inl ⟨os, r', hr', rfl⟩
  | cons q rs ih =>
      cases os with
      | nil => cases h
      | cons o os =>
          rw [List.map_cons, List.cons_append, runSetup] at h
          split at h
          · rename_i s₁ new hx
            obtain ⟨rfl, rfl⟩ := exec_request hx
            obtain ⟨r₁, hr₁, rfl⟩ := Option.map_eq_some_iff.1 h
            rcases ih hr₁ with ⟨os', r', hr', rfl⟩ | ⟨err, done, rfl⟩
            · exact .inl ⟨os', r', hr', rfl⟩
            · exact .inr ⟨err, q :: done, rfl⟩
          · rename_i s₁ err hx
            obtain rfl := exec_request_fail hx
            cases h
            exact .inr ⟨err, [], rfl⟩
          · cases h

/-! ### The whole set-up -/

/-- The broker after a set-up that has finished `n` entries: no other channel was
opened, or one more, which was closed when a request on it failed. -/
def ChannelsAfter (b : Broker) (n : ℕ) (err : Option GoError) (b' : Broker) : Prop :=
  b' = { b with channels := b.channels + n } ∨
    (err ≠ none ∧ ∃ c, b' =
      { b with channels := b.channels + n + 1 }.closeChannel ⟨b.channels + n, c⟩)

/-- What a set-up of the entries `sts` has done when it returns `r`: the entries of
`done`, each on the channel beside it. -/
structure SetupDone (s : Client) (sts : List SetupStep) (r : SetupRun)
    (done : List (SetupStep × Channel)) : Prop where
  steps : done.map (·.1) <+: sts
  all : r.err = none → done.map (·.1) = sts
  ids : done.map (·.2.id) = List.range' s.amqp.channels done.length
  taken : ∃ tail, r.taken = (done.flatMap fun d => d.1 :: d.1.body d.2) ++ tail ∧
    tail.filterMap SetupStep.registration = [] ∧ (r.err = none → tail = [])
  names : r.registered = done.filterMap fun d => Option.map (·, d.2) <| SetupStep.entry? d.1
  client : ∃ b, ChannelsAfter s.amqp done.length r.err b ∧
    r.client = { s.putAll r.registered with amqp := b }

theorem Client.put_amqp (s : Client) (b : Broker) (e : Entry) (ch : Channel) :
    ({ s with amqp := b } : Client).put e ch = { s.put e ch with amqp := b } := by
  cases e <;> rfl

theorem Client.amqp_put (s : Client) (e : Entry) (ch : Channel) : (s.put e ch).amqp = s.amqp := by
  cases e <;> rfl

theorem Client.putAll_amqp (s : Client) (b : Broker) (es : List (Entry × Channel)) :
    ({ s with amqp := b } : Client).putAll es = { s.putAll es with amqp := b } := by
  induction es generalizing s with
  | nil => rfl
  | cons e es ih =>
      rw [Client.putAll, List.foldl_cons, Client.put_amqp]
      exact ih (s.put e.1 e.2)

/-- One entry more in front of those a set-up has finished. -/
theorem ChannelsAfter.succ {b b' : Broker} {n : ℕ} {err : Option GoError}
    (h : ChannelsAfter { b with channels := b.channels + 1 } n err b') :
    ChannelsAfter b (n + 1) err b' := by
  have hn : b.channels + 1 + n = b.channels + (n + 1) := by omega
  rcases h with h | ⟨he, c, h⟩
  · refine .inl ?_
    rw [h]
    simp only [hn]
  · refine .inr ⟨he, c, ?_⟩
    rw [h]
    simp only [hn]

/-- **An entry that is registered**, in front of a set-up that goes on. -/
theorem SetupDone.cons {s : Client} {st : SetupStep} {sts : List SetupStep} {r : SetupRun}
    {e : Entry} {rs : List Request} {ch : Channel} {done : List (SetupStep × Channel)}
    (hst : st.opens = true) (he : st.entry? = some e) (hid : ch.id = s.amqp.channels)
    (hbody : st.body ch = List.map (fun q => .request q ch) rs ++ [e.register ch])
    (hd : SetupDone
      (({ s with amqp := { s.amqp with channels := s.amqp.channels + 1 } } : Client).put e ch)
      sts r done) :
    SetupDone s (st :: sts) ⟨r.client, r.err,
      st :: (List.map (fun q => .request q ch) rs ++ e.register ch :: r.taken)⟩
      ((st, ch) :: done) := by
  obtain ⟨tail, htaken, htail, hnil⟩ := hd.taken
  obtain ⟨b, hb, hclient⟩ := hd.client
  have hreg : SetupRun.registered ⟨r.client, r.err,
      st :: (List.map (fun q => .request q ch) rs ++ e.register ch :: r.taken)⟩ =
      (e, ch) :: r.registered := by
    rw [SetupRun.registered, List.filterMap_cons, SetupStep.registration_of_opens hst,
      List.filterMap_append, filterMap_registration_requests, List.nil_append,
      List.filterMap_cons, Entry.registration_register]
    rfl
  refine ⟨?_, ?_, ?_, ⟨tail, ?_, htail, hnil⟩, ?_, b, ?_, ?_⟩
  · exact (List.prefix_cons_inj st).2 hd.steps
  · intro herr
    rw [List.map_cons, hd.all herr]
  · rw [List.map_cons, hd.ids, hid, Client.amqp_put, List.length_cons, List.range'_succ]
  · simp [htaken, hbody]
  · rw [hreg, hd.names]
    simp [he]
  · rw [Client.amqp_put] at hb
    exact hb.succ
  · rw [hreg, hclient, Client.put_amqp, Client.putAll_amqp]
    rfl

/-- **What a set-up leaves behind**, whatever the broker answers. -/
theorem runSetup_creates {sts : List SetupStep} {s : Client} {os : List Choice} {r : SetupRun}
    (hsts : ∀ st ∈ sts, st.opens = true) (h : runSetup s sts os = some r) :
    ∃ done, SetupDone s sts r done := by
  induction sts generalizing s os r with
  | nil =>
      cases os <;> cases h <;>
        exact ⟨[], List.nil_prefix, fun _ => rfl, rfl, ⟨[], rfl, rfl, fun _ => rfl⟩, rfl,
          s.amqp, .inl rfl, rfl⟩
  | cons st sts ih =>
      obtain ⟨hst, hrest⟩ := List.forall_mem_cons.1 hsts
      cases os with
      | nil => cases h
      | cons o os =>
          rw [runSetup] at h
          rcases SetupStep.exec_create (s := s) (o := o) hst with ⟨c, hx⟩ | ⟨e, hx⟩ | hx
          · rw [hx] at h
            obtain ⟨r₁, hr₁, rfl⟩ := Option.map_eq_some_iff.1 h
            obtain ⟨e, rs, he, hbody⟩ := st.body_eq hst
            rw [hbody, List.append_assoc, List.singleton_append] at hr₁
            rcases runSetup_requests hr₁ with ⟨os', r', hr', rfl⟩ | ⟨err, made, rfl⟩
            · obtain ⟨done, hd⟩ := ih hrest hr'
              exact ⟨_, hd.cons hst he rfl (hbody _)⟩
            · -- a request failed: the steps taken have registered nothing
              have hnone : (st :: List.map (fun q => SetupStep.request q ⟨s.amqp.channels, c⟩)
                  made).filterMap SetupStep.registration = [] := by
                rw [List.filterMap_cons, SetupStep.registration_of_opens hst]
                exact filterMap_registration_requests made _
              refine ⟨[], List.nil_prefix, fun h => (by cases h), rfl,
                ⟨_, rfl, hnone, fun h => (by cases h)⟩, hnone, _,
                .inr ⟨Option.some_ne_none err, c, rfl⟩, ?_⟩
              rw [SetupRun.registered, hnone]
              rfl
          · rw [hx] at h
            cases h
            exact ⟨[], List.nil_prefix, fun h => (by cases h), rfl,
              ⟨[], rfl, rfl, fun _ => rfl⟩, rfl, s.amqp, .inl rfl, rfl⟩
          · rw [hx] at h
            cases h

theorem SetupStep.entry_of_opens {st : SetupStep} (h : st.opens = true) :
    ∃ e, st.entry? = some e := by
  obtain ⟨e, rs, he, -⟩ := st.body_eq h
  exact ⟨e, he⟩

/-- **What a set-up has registered**: the names of the entries it has finished, in
order, on the channels from the first fresh one on. -/
theorem SetupDone.registered {s : Client} {sts : List SetupStep} {r : SetupRun}
    {done : List (SetupStep × Channel)} (hd : SetupDone s sts r done)
    (hsts : ∀ st ∈ sts, st.opens = true) :
    r.registered.map (·.1) <+: sts.filterMap SetupStep.entry? ∧
      (r.err = none → r.registered.map (·.1) = sts.filterMap SetupStep.entry?) ∧
      r.registered.map (·.2.id) = List.range' s.amqp.channels r.registered.length ∧
      r.registered.length = done.length := by
  have hentry : ∀ d ∈ done, ∃ e, SetupStep.entry? d.1 = some e := fun d hdm =>
    SetupStep.entry_of_opens (hsts _ (hd.steps.subset (List.mem_map_of_mem hdm)))
  have hfst : r.registered.map (·.1) = (done.map (·.1)).filterMap SetupStep.entry? := by
    rw [hd.names]
    clear hd
    induction done with
    | nil => rfl
    | cons d done ih =>
        obtain ⟨⟨e, he⟩, hrest⟩ := List.forall_mem_cons.1 hentry
        simp [he, ih hrest]
  have hids : r.registered.map (·.2.id) = done.map (·.2.id) := by
    rw [hd.names]
    clear hd hfst
    induction done with
    | nil => rfl
    | cons d done ih =>
        obtain ⟨⟨e, he⟩, hrest⟩ := List.forall_mem_cons.1 hentry
        simp [he, ih hrest]
  have hlen : r.registered.length = done.length := by
    simpa using congrArg List.length hids
  refine ⟨?_, fun herr => ?_, ?_, hlen⟩
  · rw [hfst]
    exact hd.steps.filterMap SetupStep.entry?
  · rw [hfst, hd.all herr]
  · rw [hids, hd.ids, hlen]

/-! ### What is in the maps afterwards -/

theorem Client.entry_put (s : Client) (e e' : Entry) (ch : Channel) :
    (s.put e ch).entry e' = if e' = e then some (some ch) else s.entry e' := by
  cases e with
  | producer name =>
      cases e' with
      | producer name' =>
          simp only [Client.put, Client.entry, Entry.producer.injEq]
          exact lookup_insert_ite _ _ _ _
      | consumer name' => simp [Client.put, Client.entry]
  | consumer name =>
      cases e' with
      | producer name' => simp [Client.put, Client.entry]
      | consumer name' =>
          simp only [Client.put, Client.entry, Entry.consumer.injEq]
          exact lookup_insert_ite _ _ _ _

theorem Client.entry_putAll_of_notMem {s : Client} {es : List (Entry × Channel)} {e : Entry}
    (h : e ∉ es.map (·.1)) : (s.putAll es).entry e = s.entry e := by
  induction es generalizing s with
  | nil => rfl
  | cons d es ih =>
      rw [List.map_cons, List.mem_cons, not_or] at h
      refine (ih h.2).trans ?_
      rw [Client.entry_put, if_neg h.1]

/-- What an entry holds was there before, or was registered under its name. -/
theorem Client.mem_of_entry_putAll {s : Client} {es : List (Entry × Channel)} {e : Entry}
    {ch : Channel} (h : (s.putAll es).entry e = some (some ch)) :
    s.entry e = some (some ch) ∨ (e, ch) ∈ es := by
  induction es generalizing s with
  | nil => exact .inl h
  | cons d es ih =>
      rcases ih h with hs | hes
      · rw [Client.entry_put] at hs
        split_ifs at hs with he
        · subst he
          obtain rfl : d.2 = ch := by simpa using hs
          exact .inr (List.mem_cons_self ..)
        · exact .inl hs
      · exact .inr (List.mem_cons_of_mem _ hes)

/-- Under distinct names, every registration is there to stay. -/
theorem Client.entry_putAll_of_mem {s : Client} {es : List (Entry × Channel)} {e : Entry}
    {ch : Channel} (hnodup : (es.map (·.1)).Nodup) (h : (e, ch) ∈ es) :
    (s.putAll es).entry e = some (some ch) := by
  induction es generalizing s with
  | nil => cases h
  | cons d es ih =>
      rw [List.map_cons, List.nodup_cons] at hnodup
      rcases List.mem_cons.1 h with rfl | hes
      · refine (Client.entry_putAll_of_notMem hnodup.1).trans ?_
        rw [Client.entry_put, if_pos rfl]
      · exact ih hnodup.2 hes

end LynxRabbit
