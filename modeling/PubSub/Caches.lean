import PubSub.Cache.Idle
import PubSub.Kafka.ProducerIdle
import PubSub.Redis.Connections

/-!
# What the caches share

`HOST_MAP` and `PRODUCER_MAP` are two instances of one picture, a map of clients that are looked up or
created under a lock and removed from time to time: by evictions the one, by the reaper the other. The
producers' reaper and the subscribers' are two instances of another: what has been idle for
`EVICT_AFTER_IDLE` when a pass samples the clock is gone after it.
-/

namespace PubSub
set_option autoImplicit false
open Base Kafka Redis

/-- **Single creation** in both caches, over every interleaving of their lock sections. -/
theorem single_creation (K : Type) [Semiring K] [LinearOrder K] [FloorSemiring K] :
    SingleCreation Connections.system Connections.State.map id Connections.event Connections.answer ∧
      SingleCreation (ProducerCache.system K) ProducerCache.State.map ProducerCache.ProducerCacheEntry.producer
        ProducerCache.event ProducerCache.answer :=
  ⟨Connections.getOrCreate.singleCreation, ProducerCache.getOrCreate.singleCreation⟩

/-- **Idle entries are evicted.** On every run of either cache, each pass removes the runtimes that had no
listener, and the producers that no call had returned, since `EVICT_AFTER_IDLE` before its sample. -/
theorem idle_entries_evicted (ring : Cache.Ring) (K : Type) [Semiring K] [LinearOrder K] [IsStrictOrderedRing K]
    [FloorSemiring K] :
    (∀ as : List Cache.Action, (Cache.system ring).Along (Cache.EvictsStale ring) Cache.init as) ∧
      ∀ as : List (ProducerCache.Action K),
        (ProducerCache.system K).Along ProducerCache.EvictsStale ProducerCache.init as := by
  constructor
  · intro as
    exact Lts.Along.of_reachable (M := Cache.system ring) (fun _ _ _ => Cache.evictsStale) as
  · intro as
    exact Lts.Along.of_reachable (M := ProducerCache.system K)
      (fun _ _ _ reached _ => ProducerCache.evictsStale reached) as

/-- A runtime whose only listener is there at the first pass and leaves then, and the pass one minute later. -/
def idleRuntime : List Cache.Action :=
  let key : Cache.CacheKey := ⟨"localhost", "topic", .Kafka⟩
  [.read key, .write key, .subscribe, .insert, .tick (fromSecs 10), .wake, .reap, .drop 0,
    .tick (fromSecs 60), .wake, .reap]

/-- A producer that is created at half a second, and the pass one minute later. -/
def idleProducer : List (ProducerCache.Action ℚ) :=
  [.tick (1 / 2), .begin "broker", .lookup 0, .write 0 (.ok ()), .tick 60, .wake, .reap]

/-- The last passes find an entry that has been idle for exactly `EVICT_AFTER_IDLE`, and leave none. -/
theorem idle_entries_evicted_idleProducer :
    (Cache.system Cache.powerOfTwo).Along (Cache.EvictsStale Cache.powerOfTwo) Cache.init idleRuntime ∧
      ((Cache.system Cache.powerOfTwo).exec Cache.init idleRuntime.dropLast).map (fun s => s.map.size) = some 1 ∧
      ((Cache.system Cache.powerOfTwo).exec Cache.init idleRuntime).map (fun s => s.map.size) = some 0 ∧
      (ProducerCache.system ℚ).Along ProducerCache.EvictsStale ProducerCache.init idleProducer ∧
      ((ProducerCache.system ℚ).exec ProducerCache.init idleProducer.dropLast).map (fun s => s.map.size) = some 1 ∧
      ((ProducerCache.system ℚ).exec ProducerCache.init idleProducer).map (fun s => s.map.size) = some 0 :=
  ⟨(idle_entries_evicted Cache.powerOfTwo ℚ).1 idleRuntime, by decide +kernel, by decide +kernel,
    (idle_entries_evicted Cache.powerOfTwo ℚ).2 idleProducer, by decide +kernel, by decide +kernel⟩

end PubSub
