import PubSub.Cache.Fanout
import PubSub.Kafka.Agreement
import PubSub.Redis.Trimming
import PubSub.Traces

/-!
# From a publisher to a subscriber

The runtimes pass on what they are delivered, each item once and in order, however often they reconnect
in between, and the cache gives each listener what the runtime of its key sends while it listens. So a
message that was published reaches the subscribers as it was: with its key through Kafka, without it
through Redis.
-/

namespace PubSub
set_option autoImplicit false
open Base

/-! ## What the runtimes pass on -/

/-- A message that is broadcast, or the warning that takes its place. -/
def Event.isDelivery : Event → Bool
  | .send _ | .warn _ => true
  | _ => false

/-- The messages and the warnings of a trace. -/
def deliveries (t : List Event) : List Event := t.filter Event.isDelivery

theorem sends_deliveries (t : List Event) : sends (deliveries t) = sends t := by
  rw [sends, deliveries, List.filterMap_filter, sends]
  congr 1
  funext e
  cases e <;> rfl

@[simp] theorem deliveries_append (t u : List Event) : deliveries (t ++ u) = deliveries t ++ deliveries u :=
  List.filter_append t u

@[simp] theorem deliveries_recovered {recovered : Bool} {line : String} :
    deliveries (if recovered then [.info line] else []) = [] := by
  cases recovered <;> rfl

theorem deliveries_onError {K E : Type} [BEq K] [Debug E] {kind : K} {err : E} {context : String} {o : OutageState K} :
    deliveries (o.onError kind err context).1 = [] := by
  rw [deliveries, List.filter_eq_nil_iff]
  intro e here
  rw [OutageState.onError_events] at here
  rcases List.mem_append.1 here with line | sleep
  · obtain ⟨text, rfl⟩ := OutageState.mem_recordError line
    exact Bool.false_ne_true
  · rw [List.mem_singleton.1 sleep]
    exact Bool.false_ne_true

namespace Kafka.Runtime

variable [Debug KafkaError] [Debug BorrowedMessage]

/-- What an item of a message stream becomes. -/
def delivery : Except KafkaError BorrowedMessage → Option Event
  | .ok msg => some (converted msg)
  | .error _ => none

theorem deliveries_monitorAfter (previous : Option (Except KafkaError BorrowedMessage))
    (items : List (Except KafkaError BorrowedMessage)) :
    deliveries (monitorAfter previous items) = items.filterMap delivery := by
  induction items generalizing previous with
  | nil => rfl
  | cons item items ih =>
    rw [monitorAfter, deliveries_append, ih]
    cases item with
    | error e =>
      rw [List.filterMap_cons_none rfl, handleAfter]
      split <;> rfl
    | ok msg =>
      have kept : deliveries [converted msg] = [converted msg] := by
        unfold converted
        split <;> rfl
      have here : delivery (.ok msg) = some (converted msg) := rfl
      rw [List.filterMap_cons_some here, handleAfter, deliveries_append, deliveries_recovered, kept]
      rfl

theorem deliveries_round (host : String) (outage : OutageState Nat) (r : Round) :
    deliveries (round host outage r).1 = r.items.filterMap delivery := by
  have attempt : ∀ t, deliveries (.attempt :: t) = deliveries t := fun _ => rfl
  cases r with
  | creationFailed e => exact (attempt _).trans deliveries_onError
  | subscriptionFailed e => exact (attempt _).trans deliveries_onError
  | monitored items finish =>
    simp only [round, List.cons_append, attempt, deliveries_append, deliveries_recovered, List.nil_append,
      monitorStream_eq]
    exact deliveries_monitorAfter none items

theorem deliveries_startStream (host : String) (rounds : List Round) :
    deliveries (startStream host rounds).flatten = (delivered rounds).filterMap delivery := by
  rw [deliveries, startStream, filter_iterate (deliveries_round host), delivered, List.filterMap_flatMap]

end Kafka.Runtime

namespace Redis

namespace PubSubRuntime

/-- The messages that arrive in an iteration. -/
def Round.incoming : Round → List (Except ParsingError Value)
  | .connectFailed _ => []
  | .drained incoming _ => incoming

/-- What arrives at a runtime. -/
def delivered (rounds : List Round) : List (Except ParsingError Value) :=
  (executed Round.stops rounds).flatMap Round.incoming

variable [RedisClient] [Debug ParsingError] [Debug RedisError]

omit [Debug RedisError] in
theorem deliveries_map_drainMessage (incoming : List (Except ParsingError Value)) :
    deliveries (incoming.map drainMessage) = incoming.map drainMessage := by
  rw [deliveries, List.filter_eq_self]
  intro e here
  obtain ⟨item, -, rfl⟩ := List.mem_map.1 here
  unfold drainMessage
  split
  · rfl
  · rfl
  · split <;> rfl

theorem deliveries_round (host : String) (outage : OutageState ErrorKind) (r : Round) :
    deliveries (round host outage r).1 = r.incoming.map drainMessage := by
  have attempt : ∀ t, deliveries (.attempt :: t) = deliveries t := fun _ => rfl
  cases r with
  | connectFailed err => exact (attempt _).trans deliveries_onError
  | drained incoming outcome =>
    cases outcome with
    | Stop =>
      simp only [round, attempt, deliveries_append, deliveries_recovered, List.nil_append]
      exact deliveries_map_drainMessage incoming
    | Reconnect =>
      simp only [round, attempt, deliveries_append, deliveries_recovered, List.nil_append, deliveries_onError,
        List.append_nil]
      exact deliveries_map_drainMessage incoming

theorem deliveries_startStream (host : String) (rounds : List Round) :
    deliveries (startStream host rounds).flatten = (delivered rounds).map drainMessage := by
  rw [deliveries, startStream, filter_iterate (deliveries_round host), delivered, List.map_flatMap]

end PubSubRuntime

namespace StreamRuntime

variable {I : Type}

def Round.entries : Round I → List (StreamId I)
  | .connectionFailed _ => []
  | .monitored replies _ => replies.flatten

/-- The entries that a runtime reads. -/
def delivered (rounds : List (Round I)) : List (StreamId I) := (executed Round.stops rounds).flatMap Round.entries

variable [RedisClient] [SerdeJson] [Debug ParsingError] [Debug (StreamId I)] [Debug RedisError]

omit [Debug RedisError] in
theorem deliveries_map_forward (entries : List (StreamId I)) :
    deliveries (entries.map forward) = entries.map forward := by
  rw [deliveries, List.filter_eq_self]
  intro e here
  obtain ⟨entry, -, rfl⟩ := List.mem_map.1 here
  unfold forward
  split <;> rfl

theorem deliveries_round (host : String) (outage : OutageState ErrorKind) (r : Round I) :
    deliveries (round host outage r).1 = r.entries.map forward := by
  have attempt : ∀ t, deliveries (.attempt :: t) = deliveries t := fun _ => rfl
  cases r with
  | connectionFailed err => exact (attempt _).trans deliveries_onError
  | monitored replies finish =>
    cases finish with
    | cancelled =>
      simp only [round, attempt, deliveries_append, deliveries_recovered, List.nil_append]
      exact deliveries_map_forward replies.flatten
    | failed err =>
      have evict : deliveries [.evict] = [] := rfl
      simp only [round, attempt, deliveries_append, deliveries_recovered, List.nil_append, deliveries_onError, evict,
        List.append_nil]
      exact deliveries_map_forward replies.flatten

theorem deliveries_startStream (host : String) (rounds : List (Round I)) :
    deliveries (startStream host rounds).flatten = (delivered rounds).map forward := by
  rw [deliveries, startStream, filter_iterate (deliveries_round host), delivered, List.map_flatMap]

end StreamRuntime

end Redis

section Runs

open Redis

variable [RedisClient] [SerdeJson] [Debug Kafka.KafkaError] [Debug Kafka.BorrowedMessage] [Debug ParsingError]
  [Debug RedisError] {I : Type} [Debug (StreamId I)]

/-- **Every item once.** What a runtime broadcasts and warns about, over all its connections, is what was
delivered to it before it was cancelled, item by item and in order: a Kafka record becomes a message or
a warning, and so does a Redis message or entry; only the errors in a Kafka stream become neither. -/
theorem each_item_once (host : String) (kafka : List Kafka.Round) (pubsub : List PubSubRuntime.Round)
    (stream : List (StreamRuntime.Round I)) :
    deliveries (Kafka.Runtime.startStream host kafka).flatten =
        (Kafka.Runtime.delivered kafka).filterMap Kafka.Runtime.delivery ∧
      deliveries (PubSubRuntime.startStream host pubsub).flatten =
        (PubSubRuntime.delivered pubsub).map PubSubRuntime.drainMessage ∧
      deliveries (StreamRuntime.startStream host stream).flatten = (StreamRuntime.delivered stream).map forward :=
  ⟨Kafka.Runtime.deliveries_startStream host kafka, PubSubRuntime.deliveries_startStream host pubsub,
    StreamRuntime.deliveries_startStream host stream⟩

end Runs

/-! ## Publishing -/

namespace Kafka

structure FutureRecord where
  topic : String
  key : Option Bytes
  payload : Bytes

section Publishing

variable {M : Type} [Message M]

/-- The record that `publish` hands to the producer. -/
def FutureRecord.of (topic : String) (message : M) : FutureRecord :=
  ⟨topic, (Message.intoBytes message).key, (Message.intoBytes message).value⟩

/-- What the broker hands out is what it was sent. -/
structure BorrowedMessage.Carries (record : FutureRecord) (msg : BorrowedMessage) : Prop where
  key : msg.key = record.key
  payload : msg.payload = some record.payload

end Publishing

end Kafka

/-- What `publish` hands to the pub/sub connection. -/
def Redis.pubSubPayload {M : Type} [Message M] (message : M) : Bytes := (Message.intoBytes message).value

/-- The message without its key. -/
def BuiltIn.keyless : (b : BuiltIn) → b.Carrier → b.Carrier
  | .byteMessage, m => { (m : ByteMessage) with key := none }
  | .stringMessage, m => { (m : StringMessage) with key := none }
  | .mapMessage, m => { (m : Redis.MapMessage) with key := none }

section Delivery

open Redis

variable [SerdeJsonMap]

theorem intoBytes_keyless (b : BuiltIn) (m : b.Carrier) :
    Message.intoBytes (b.keyless m) = .fromValue (pubSubPayload m) := by
  cases b with
  | byteMessage => rfl
  | stringMessage => rfl
  | mapMessage => rfl

theorem BuiltIn.codec (reads : SerdeJsonMap.ReadsMaps) (b : BuiltIn) : Codec b.Carrier b.Same := by
  cases b with
  | byteMessage => exact byteMessage_codec
  | stringMessage => exact stringMessage_codec
  | mapMessage => exact mapMessage_codec reads

variable [Debug Kafka.KafkaError] [Debug Kafka.BorrowedMessage] {b : BuiltIn} {ms : List b.Carrier}

theorem sends_kafka {topic : String} {rounds : List Kafka.Round} (host : String)
    (carried : List.Forall₂ (fun m msg => Kafka.BorrowedMessage.Carries (.of topic m) msg) ms
      ((Kafka.Runtime.delivered rounds).filterMap Except.toOption)) :
    sends (Kafka.Runtime.startStream host rounds).flatten = ms.map Message.intoBytes := by
  have accepted : Kafka.Runtime.accepted =
      fun item : Except Kafka.KafkaError Kafka.BorrowedMessage => item.toOption.bind Kafka.Runtime.convertToMessage := by
    funext item
    cases item <;> rfl
  rw [Kafka.Runtime.sends_startStream, accepted, ← List.filterMap_filterMap]
  generalize (Kafka.Runtime.delivered rounds).filterMap Except.toOption = records at carried ⊢
  induction carried with
  | nil => rfl
  | @cons m msg _ _ first _ ih =>
    have converts : Kafka.Runtime.convertToMessage msg = some (Message.intoBytes m) := by
      rw [Kafka.Runtime.convertToMessage, first.payload, first.key]
      rfl
    rw [List.filterMap_cons_some converts, ih, List.map_cons]

omit [SerdeJsonMap] [Debug Kafka.KafkaError] [Debug Kafka.BorrowedMessage] in
theorem sends_pubsub [RedisClient] [Debug ParsingError] [Debug RedisError] {rounds : List PubSubRuntime.Round}
    {payloads : List Bytes} (host : String)
    (carried : (PubSubRuntime.delivered rounds).filterMap Except.toOption = payloads.map Value.BulkString) :
    sends (PubSubRuntime.startStream host rounds).flatten = payloads.map ByteMessage.fromValue := by
  rw [← sends_deliveries, PubSubRuntime.deliveries_startStream]
  generalize PubSubRuntime.delivered rounds = incoming at carried ⊢
  induction incoming generalizing payloads with
  | nil =>
    rw [List.map_eq_nil_iff.1 carried.symm]
    rfl
  | cons item incoming ih =>
    cases item with
    | error e => exact ih carried
    | ok value =>
      obtain ⟨payload, rest, rfl, rfl, others⟩ := List.map_eq_cons_iff.1 carried.symm
      exact congrArg _ (ih others.symm)

omit [Debug Kafka.KafkaError] [Debug Kafka.BorrowedMessage] in
theorem sends_stream [RedisClient] [SerdeJson] [Debug ParsingError] [Debug RedisError] {I : Type} [Debug (StreamId I)]
    {rounds : List (StreamRuntime.Round I)} {es : List (I × Fields)} {texts : List (Table String String)}
    (strings : RedisClient.Strings) (faithful : SerdeJson.Faithful) (reads : SerdeJsonMap.ReadsObjects) (host : String)
    (carried : List.Forall₂ StreamId.Carries es (StreamRuntime.delivered rounds))
    (spells : List.Forall₂ RedisPublisher.Spells es texts) :
    List.Forall₂ (fun r t => MapMessage.Same (Message.ofByteMessage r) ⟨none, t⟩)
      (sends (StreamRuntime.startStream host rounds).flatten) texts := by
  rw [← sends_deliveries, StreamRuntime.deliveries_startStream]
  generalize StreamRuntime.delivered rounds = entries at carried ⊢
  induction carried generalizing texts with
  | nil =>
    cases spells
    exact .nil
  | @cons e entry _ entries carries _ ih =>
    obtain _ | ⟨first, rest⟩ := spells
    obtain ⟨message, converted, same⟩ := convert_map strings faithful reads carries first
    have forwarded : forward entry = .send message := by rw [forward, converted]
    rw [List.map_cons, forwarded]
    exact .cons same (ih rest)

/-- A trace of the loop that the cache spawns for a key, in which what is published to the topic is
delivered, and the published messages as they should reach a listener. -/
inductive Relays (I : Type) [RedisClient] [SerdeJson] [Debug ParsingError] [Debug RedisError] [Debug (StreamId I)] :
    Cache.CacheKey → List Event → (b : BuiltIn) → List b.Carrier → Prop where
  /-- records with their keys -/
  | Kafka (host topic : String) (b : BuiltIn) (ms : List b.Carrier) (rounds : List Kafka.Round)
      (carried : List.Forall₂ (fun m msg => Kafka.BorrowedMessage.Carries (.of topic m) msg) ms
        ((Kafka.Runtime.delivered rounds).filterMap Except.toOption)) :
      Relays I ⟨host, topic, .Kafka⟩ (Kafka.Runtime.startStream host rounds).flatten b ms
  /-- values only -/
  | RedisPubSub (host topic : String) (b : BuiltIn) (ms : List b.Carrier) (rounds : List PubSubRuntime.Round)
      (carried : (PubSubRuntime.delivered rounds).filterMap Except.toOption =
        (ms.map pubSubPayload).map Value.BulkString) :
      Relays I ⟨host, topic, .RedisPubSub⟩ (PubSubRuntime.startStream host rounds).flatten b (ms.map b.keyless)
  /-- fields, as `publish_stream` writes them for a map and `publish` for a text -/
  | RedisStream (host topic : String) (es : List (I × Fields)) (texts : List (Table String String))
      (rounds : List (StreamRuntime.Round I)) (spells : List.Forall₂ RedisPublisher.Spells es texts)
      (carried : List.Forall₂ StreamId.Carries es (StreamRuntime.delivered rounds)) :
      Relays I ⟨host, topic, .RedisStream⟩ (StreamRuntime.startStream host rounds).flatten .mapMessage
        (texts.map fun t => (⟨none, t⟩ : MapMessage))

/-- What such a loop broadcasts decodes to the published messages, one by one. -/
theorem Relays.same {I : Type} [RedisClient] [SerdeJson] [Debug ParsingError] [Debug RedisError] [Debug (StreamId I)]
    {key : Cache.CacheKey} {trace : List Event} (relays : Relays I key trace b ms) (strings : RedisClient.Strings)
    (faithful : SerdeJson.Faithful) (reads : SerdeJsonMap.ReadsMaps) (objects : SerdeJsonMap.ReadsObjects) :
    List.Forall₂ (fun r m => b.Same (Message.ofByteMessage r) m) (sends trace) ms := by
  cases relays with
  | Kafka host topic b ms rounds carried =>
    rw [sends_kafka host carried, List.forall₂_map_left_iff, List.forall₂_same]
    exact fun m _ => (BuiltIn.codec reads b).ofByteMessage m
  | RedisPubSub host topic b ms rounds carried =>
    rw [sends_pubsub host carried, List.map_map, List.forall₂_map_left_iff, List.forall₂_map_right_iff,
      List.forall₂_same]
    intro m _
    have same := (BuiltIn.codec reads b).ofByteMessage (b.keyless m)
    rw [intoBytes_keyless] at same
    exact same
  | RedisStream host topic es texts rounds spells carried =>
    exact List.forall₂_map_right_iff.2 (sends_stream strings faithful objects host carried spells)

end Delivery

/-! ## Listening through the cache -/

namespace Cache

variable {ring : Ring} {s s₁ : State} {as before after : List Action} {r n : Nat}

theorem sentBy_append (r : Nat) (as bs : List Action) : sentBy r (as ++ bs) = sentBy r as ++ sentBy r bs :=
  List.filterMap_append

/-- A stream that is held at the end of a run subscribed at some point of it, and has been fanned out to
since then. -/
theorem fanOut_of_held {st : Stream} (ran : (system ring).exec init as = some s)
    (held : s.streams.lookup n = some st) (M : Type) [Message M] :
    ∃ before after s₁ base, as = before ++ after ∧ (system ring).exec init before = some s₁ ∧
      s₁.nextStream = n + 1 ∧ FanOut ring M st.runtime n base s₁ after s := by
  have listening := (consistent_of_reachable ⟨as, ran⟩).listening
  have old : n < s.nextStream := listening.fresh _ n (listening.attached n st held).2
  obtain ⟨before, a, after, t, s₁, rfl, first, unborn, taken, born, rest⟩ :=
    Lts.exists_crossing (P := fun s => n < s.nextStream) ran (Nat.not_lt_zero n) old
  have reached : (system ring).Reachable t := ⟨before, first⟩
  obtain ⟨r, log, follows⟩ := follows_of_subscribed reached (.of_step taken) unborn born
  have here : ¬ Gone n s := by
    intro gone
    rw [gone.stream] at held
    cases held
  obtain rfl := (follows.exec (reached.step taken) rest here).1.stream st held
  refine ⟨before ++ [a], after, s₁, log.length, by rw [List.append_assoc]; rfl, ?_, ?_,
    follows.fanOut (reached.step taken) rest here M⟩
  · rw [Lts.exec_append, first, Option.bind_some, Lts.exec_cons, taken]
    rfl
  · have := (Step.of_step taken).nextStream_le.2
    omega

/-- What was published while stream `n` of runtime `r` was open: all but the messages that the runtime
broadcast before. -/
def published {α : Type} (ms : List α) (r : Nat) (before after : List Action) : List α :=
  (ms.drop (sentBy r before).length).take (sentBy r after).length

/-- What is broadcast after the subscription stands for what was published then. -/
theorem forall₂_published {α : Type} {same : ByteMessage → α → Prop} {bs : List ByteMessage} {ms : List α}
    (all : List.Forall₂ same bs ms) (sent : sentBy r (before ++ after) <+: bs) :
    List.Forall₂ same (sentBy r after) (published ms r before after) := by
  obtain ⟨rest, rfl⟩ := sent
  have part := List.forall₂_take (sentBy r after).length (List.forall₂_drop (sentBy r before).length all)
  rwa [sentBy_append, List.append_assoc, List.drop_left, List.take_left] at part

section Yields

open Redis

variable [SerdeJsonMap] {b : BuiltIn} {ms : List b.Carrier}

/-- A stream yields what was published while it was open. -/
structure Yields (ring : Ring) (b : BuiltIn) (ms : List b.Carrier) (r n : Nat) (before after : List Action)
    (s₁ s : State) : Prop where
  /-- in order, no message twice and none that was not published -/
  inOrder : List.SublistForall₂ b.Same (yielded ring b.Carrier n s₁ after) (published ms r before after)
  /-- and all of it, up to what waits to be read, if the stream is never far behind -/
  whole : (∀ mid rest t, after = mid ++ rest → (system ring).exec s₁ mid = some t →
      t.behind r n ≤ defaultChannelCapacity) →
    List.Forall₂ b.Same (yielded ring b.Carrier n s₁ after ++ (s.unread r n).map Message.ofByteMessage)
      (published ms r before after)

theorem FanOut.yields {base : Nat} (fanOut : FanOut ring b.Carrier r n base s₁ after s)
    (all : List.Forall₂ (fun m m' => b.Same (Message.ofByteMessage m) m') (sentBy r after)
      (published ms r before after)) : Yields ring b ms r n before after s₁ s := by
  constructor
  · rw [fanOut.own, List.sublistForall₂_map_left_iff]
    refine Listener.received_sublistForall₂ _ ?_
    rwa [← Listener.sent_listen (ring.size defaultChannelCapacity), ← sentBy_eq]
  · intro close
    rwa [fanOut.close close, List.forall₂_map_left_iff]

/-- **Every listener yields what was published.** In whatever order the calls, the runtimes' tasks, the
readers and the reaper take their steps, the streams that are held for a key are on one runtime, whose
task is the one spawned for this key. If what it broadcast comes from a trace of its loop, with any errors
and reconnects, in which the messages published to the topic were delivered, then each of these streams
yields the messages published while it was open: equal to them, in order, and all that do not still wait
to be read if it is never more than the capacity behind. -/
theorem streams_yield_published [RedisClient] [SerdeJson] [Debug Kafka.KafkaError] [Debug Kafka.BorrowedMessage]
    [Debug ParsingError] [Debug RedisError] {I : Type} [Debug (StreamId I)] (strings : RedisClient.Strings)
    (faithful : SerdeJson.Faithful) (reads : SerdeJsonMap.ReadsMaps) (objects : SerdeJsonMap.ReadsObjects)
    {key : CacheKey} {entry : CachedRuntime} {rt : Runtime} {trace : List Event}
    (ran : (system ring).exec init as = some s) (stored : s.map.lookup key = some entry)
    (spawned : s.runtimes.lookup entry.runtime = some rt) (relays : Relays I rt.key trace b ms)
    (sent : sentBy entry.runtime as <+: sends trace) :
    rt.key = key ∧ ∀ n st, s.streams.lookup n = some st → st.key = key → st.runtime = entry.runtime ∧
      ∃ before after s₁, as = before ++ after ∧ (system ring).exec init before = some s₁ ∧ s₁.nextStream = n + 1 ∧
        Yields ring b ms entry.runtime n before after s₁ s := by
  have con := consistent_of_reachable ⟨as, ran⟩
  have all := relays.same strings faithful reads objects
  constructor
  · obtain ⟨h, handle, same, -⟩ := con.registry.entry key entry stored
    rw [State.handleOf, spawned] at handle
    cases handle
    exact same
  · rintro n st held rfl
    obtain ⟨⟨e, found, same⟩, -⟩ := con.listening.attached n st held
    obtain rfl : e = entry := Option.some.inj (found.symm.trans stored)
    obtain ⟨before, after, s₁, base, rfl, first, number, fanOut⟩ := fanOut_of_held ran held b.Carrier
    rw [← same] at fanOut
    exact ⟨same.symm, before, after, s₁, rfl, first, number, fanOut.yields (forall₂_published all sent)⟩

end Yields

/-- Two records, with an error and another consumer between them. -/
def interruptedKafka : List Kafka.Round :=
  [.monitored [.ok ⟨0, 0, some ⟨#[107]⟩, some ⟨#[97]⟩⟩, .error (.Other 0 "")] .ended, .creationFailed (.Other 1 ""),
    .monitored [.ok ⟨0, 1, some ⟨#[107]⟩, some ⟨#[98]⟩⟩] .cancelled]

def kafkaKey : CacheKey := ⟨"localhost", "topic", .Kafka⟩

/-- A listener reads the first message, another one joins, and both read the second. -/
def joining : List Action :=
  [.read kafkaKey, .write kafkaKey, .subscribe, .insert, .send 0 ⟨some ⟨#[107]⟩, ⟨#[97]⟩⟩, .poll 0, .read kafkaKey,
    .send 0 ⟨some ⟨#[107]⟩, ⟨#[98]⟩⟩, .poll 0, .poll 1]

open Redis.Reference in
theorem streams_yield_published_joining : ∃ s rt, (system powerOfTwo).exec init joining = some s ∧
    s.runtimes.lookup 0 = some rt ∧ (s.streams.lookup 0).isSome ∧ (s.streams.lookup 1).isSome ∧ rt.key = kafkaKey ∧
    ∀ n st, s.streams.lookup n = some st → st.key = kafkaKey → st.runtime = 0 ∧
      ∃ before after s₁, joining = before ++ after ∧ (system powerOfTwo).exec init before = some s₁ ∧
        s₁.nextStream = n + 1 ∧
        Yields powerOfTwo .stringMessage [(⟨some "k", "a"⟩ : StringMessage), ⟨some "k", "b"⟩] 0 n before after s₁ s := by
  let _ : Debug Kafka.KafkaError := ⟨fun _ => ""⟩
  let _ : Debug Kafka.BorrowedMessage := ⟨fun _ => ""⟩
  have ends : ((system powerOfTwo).exec init joining).map (fun s => (s.map.lookup kafkaKey,
      (s.runtimes.lookup 0).map Runtime.key, (s.streams.lookup 0).isSome, (s.streams.lookup 1).isSome)) =
      some (some ⟨0, 0⟩, some kafkaKey, true, true) := by decide
  obtain ⟨s, ran, parts⟩ := Option.map_eq_some_iff.1 ends
  simp only [Prod.mk.injEq] at parts
  obtain ⟨stored, spawned, first, second⟩ := parts
  obtain ⟨rt, spawned, key⟩ := Option.map_eq_some_iff.1 spawned
  have relays : Relays Nat kafkaKey (Kafka.Runtime.startStream "localhost" interruptedKafka).flatten .stringMessage
      [(⟨some "k", "a"⟩ : StringMessage), ⟨some "k", "b"⟩] :=
    .Kafka "localhost" "topic" .stringMessage _ interruptedKafka (.cons ⟨rfl, rfl⟩ (.cons ⟨rfl, rfl⟩ .nil))
  rw [← key] at relays
  have sent : sentBy 0 joining <+: sends (Kafka.Runtime.startStream "localhost" interruptedKafka).flatten := ⟨[], rfl⟩
  exact ⟨s, rt, ran, spawned, first, second,
    streams_yield_published strings faithful readsMaps readsObjects ran stored spawned relays sent⟩

end Cache

end PubSub
