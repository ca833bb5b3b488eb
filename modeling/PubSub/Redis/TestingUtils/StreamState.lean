import PubSub.Base.Decimal
import PubSub.Base.Lts
import PubSub.Base.Table

/-!
# The streams of the mock server

Entries per topic, with ids made from the number of entries. Ids are texts and `after` compares
them as texts, so `"10-0"` comes before `"9-0"`: whether a reader gets what was pushed since depends
on the number it asks with and on the number of entries.
-/

namespace PubSub.Redis.TestingUtils
set_option autoImplicit false
open Base

structure StreamEntry where
  id : String
  /-- Ordered list of field/value pairs for this stream entry. -/
  fields : List (String × String)
  deriving DecidableEq

structure StreamState where
  entriesByTopic : Table String (List StreamEntry)

namespace StreamState

instance : Inhabited StreamState := ⟨⟨∅⟩⟩

def all (state : StreamState) (topic : String) : List StreamEntry :=
  (state.entriesByTopic.lookup topic).getD []

/-- The id of the `k`-th entry of a topic. -/
def idOf (k : Nat) : String := s!"{k}-0"

/-- The id that the new entry gets, and the state afterwards. -/
def push (state : StreamState) (topic : String) (fields : List (String × String)) : String × StreamState :=
  let entries := (state.entriesByTopic.lookup topic).getD []
  let id := idOf (entries.length + 1)
  (id, ⟨state.entriesByTopic.insert topic (entries ++ [⟨id, fields⟩])⟩)

def after (state : StreamState) (topic lastSeen : String) : List StreamEntry :=
  match state.entriesByTopic.lookup topic with
  | none => []
  | some entries =>
    if lastSeen = "$" then entries.getLast?.toList
    else entries.filter fun entry => lastSeen < entry.id

/-! ## Ids -/

theorem toList_idOf (k : Nat) : (idOf k).toList = Nat.toDigits 10 k ++ ['-', '0'] := by
  simp [idOf, toString]

theorem idOf_lt_iff {k j : Nat} :
    idOf k < idOf j ↔ Nat.toDigits 10 k ++ ['-', '0'] < Nat.toDigits 10 j ++ ['-', '0'] := by
  rw [← toList_idOf, ← toList_idOf]
  rfl

theorem idOf_inj {k j : Nat} : idOf k = idOf j ↔ k = j := by
  rw [← String.toList_inj, toList_idOf, toList_idOf, List.append_left_inj, Decimal.toDigits_inj]

/-- No id asks for the last entry. -/
theorem idOf_ne_dollar (k : Nat) : idOf k ≠ "$" := by
  intro same
  have length := congrArg (fun s : String => s.toList.length) same
  simp only [toList_idOf, List.length_append] at length
  have := Decimal.length_pos k
  have one : "$".toList.length = 1 := rfl
  simp only [List.length_cons] at length one
  omega

theorem dash_lt_digit (c : Char) (digit : c.isDigit) : '-' < c := by
  rw [Char.isDigit, Bool.and_eq_true, decide_eq_true_eq] at digit
  exact Nat.lt_of_lt_of_le (by decide : ('-' : Char).toNat < 48) digit.1

/-! ## Pushes -/

theorem push_fst (state : StreamState) (topic : String) (fields : List (String × String)) :
    (state.push topic fields).1 = idOf ((state.all topic).length + 1) := rfl

@[simp] theorem all_push (state : StreamState) (topic : String) (fields : List (String × String)) (t : String) :
    (state.push topic fields).2.all t = if t = topic then state.all topic ++ [⟨(state.push topic fields).1, fields⟩]
      else state.all t := by
  show ((state.entriesByTopic.insert topic _).lookup t).getD [] = _
  rw [Table.lookup_insert_eq_ite]
  split
  · rfl
  · rfl

/-- An id is no `"$"`, so the entries after it are found by comparing texts. -/
theorem after_idOf (state : StreamState) (topic : String) (k : Nat) :
    state.after topic (idOf k) = (state.all topic).filter fun entry => idOf k < entry.id := by
  rw [after, all]
  cases state.entriesByTopic.lookup topic with
  | none => rfl
  | some entries => exact if_neg (idOf_ne_dollar k)

end StreamState

/-- A call of `push`. -/
structure Push where
  topic : String
  fields : List (String × String)
  deriving DecidableEq

namespace StreamState

def run (state : StreamState) (pushes : List Push) : StreamState :=
  pushes.foldl (fun state p => (state.push p.topic p.fields).2) state

/-- The entries of the pushes to a topic, with the ids that the pushes return. -/
def pushed (topic : String) : StreamState → List Push → List StreamEntry
  | _, [] => []
  | state, p :: pushes =>
    if p.topic = topic then ⟨(state.push p.topic p.fields).1, p.fields⟩ :: pushed topic (state.push p.topic p.fields).2 pushes
    else pushed topic (state.push p.topic p.fields).2 pushes

/-- The number of pushes to a topic. -/
def count (topic : String) (pushes : List Push) : Nat := pushes.countP fun p => p.topic = topic

theorem all_run (state : StreamState) (topic : String) (pushes : List Push) :
    (state.run pushes).all topic = state.all topic ++ pushed topic state pushes := by
  induction pushes generalizing state with
  | nil => exact (List.append_nil _).symm
  | cons p pushes ih =>
    rw [run, List.foldl_cons, ← run, ih, all_push, pushed]
    by_cases same : p.topic = topic
    · subst same
      rw [if_pos rfl, if_pos rfl, List.append_assoc]
      rfl
    · rw [if_neg (Ne.symm same), if_neg same]

theorem length_pushed (state : StreamState) (topic : String) (pushes : List Push) :
    (pushed topic state pushes).length = count topic pushes := by
  induction pushes generalizing state with
  | nil => rfl
  | cons p pushes ih =>
    rw [pushed, count, List.countP_cons, ← count, ← ih (state.push p.topic p.fields).2]
    by_cases same : p.topic = topic
    · simp [same]
    · simp [same]

theorem fields_pushed (state : StreamState) (topic : String) (pushes : List Push) :
    (pushed topic state pushes).map StreamEntry.fields = (pushes.filter fun p => p.topic = topic).map Push.fields := by
  induction pushes generalizing state with
  | nil => rfl
  | cons p pushes ih =>
    rw [pushed]
    by_cases same : p.topic = topic
    · simp [same, ih]
    · simp [same, ih]

/-- Pushes to other topics make no difference to the entries of a topic. -/
theorem all_run_filter {state state' : StreamState} {topic : String} (same : state.all topic = state'.all topic)
    (pushes : List Push) :
    (state.run pushes).all topic = (state'.run (pushes.filter fun p => p.topic = topic)).all topic := by
  induction pushes generalizing state state' with
  | nil => exact same
  | cons p pushes ih =>
    by_cases here : p.topic = topic
    · rw [List.filter_cons, if_pos (decide_eq_true here)]
      apply ih
      rw [all_push, all_push, if_pos here.symm, if_pos here.symm, push_fst, push_fst, here, same]
    · rw [List.filter_cons, if_neg fun there => here (of_decide_eq_true there)]
      apply ih
      rw [all_push, if_neg (Ne.symm here), same]

/-- The `k`-th entry of every topic has the `k`-th id. -/
def Numbered (state : StreamState) : Prop :=
  ∀ topic k entry, (state.all topic)[k]? = some entry → entry.id = idOf (k + 1)

theorem numbered_default : Numbered default := by
  intro topic k entry found
  cases found

theorem Numbered.push {state : StreamState} (numbered : state.Numbered) (topic : String)
    (fields : List (String × String)) : (state.push topic fields).2.Numbered := by
  intro t k entry found
  rw [all_push] at found
  split at found
  · rcases Nat.lt_trichotomy k (state.all topic).length with old | new | beyond
    · rw [List.getElem?_append_left old] at found
      exact numbered topic k entry found
    · rw [new, List.getElem?_concat_length] at found
      rw [← Option.some.inj found, new, push_fst]
    · rw [List.getElem?_eq_none (by rw [List.length_append, List.length_singleton]; omega)] at found
      cases found
  · exact numbered t k entry found

theorem Numbered.run {state : StreamState} (numbered : state.Numbered) (pushes : List Push) :
    (state.run pushes).Numbered := by
  induction pushes generalizing state with
  | nil => exact numbered
  | cons p pushes ih => exact ih (numbered.push p.topic p.fields)

/-! ## Reading on -/

/-- In a list without duplicates a filter keeps the rest exactly if it tells the places apart. -/
theorem filter_eq_drop_iff {α : Type} {p : α → Bool} {xs : List α} (nodup : xs.Nodup) {k : Nat} :
    xs.filter p = xs.drop k ↔ ∀ i x, xs[i]? = some x → (p x = true ↔ k ≤ i) := by
  induction xs generalizing k with
  | nil => simp
  | cons x xs ih =>
    obtain ⟨fresh, rest⟩ := List.nodup_cons.1 nodup
    have places : (∀ i y, (x :: xs)[i]? = some y → (p y = true ↔ k ≤ i)) ↔
        (p x = true ↔ k ≤ 0) ∧ ∀ i y, xs[i]? = some y → (p y = true ↔ k ≤ i + 1) := by
      constructor
      · exact fun all => ⟨all 0 x rfl, fun i y found => all (i + 1) y found⟩
      · rintro ⟨first, later⟩ i y found
        cases i with
        | zero => exact Option.some.inj found ▸ first
        | succ i => exact later i y found
    rw [places]
    cases k with
    | zero =>
      have all := ih rest (k := 0)
      rw [List.drop_zero] at all ⊢
      by_cases kept : p x = true
      · rw [List.filter_cons_of_pos kept, List.cons.injEq, all]
        simp [kept]
      · rw [List.filter_cons_of_neg kept]
        refine iff_of_false (fun same => ?_) fun both => kept (both.1.2 (Nat.le_refl 0))
        exact absurd (congrArg List.length same) (Nat.ne_of_lt (Nat.lt_succ_of_le (List.length_filter_le p xs)))
    | succ k =>
      rw [List.drop_succ_cons]
      have never : ¬ k + 1 ≤ 0 := by omega
      simp only [Nat.add_le_add_iff_right, never, iff_false]
      by_cases kept : p x = true
      · rw [List.filter_cons_of_pos kept]
        refine iff_of_false (fun same => ?_) fun both => both.1 kept
        exact fresh (List.mem_of_mem_drop (same ▸ List.mem_cons_self : x ∈ xs.drop k))
      · rw [List.filter_cons_of_neg kept, ih rest]
        exact (and_iff_right kept).symm

variable {state : StreamState}

/-- No two entries of a topic have the same id. -/
theorem Numbered.nodup_ids (numbered : state.Numbered) (topic : String) :
    ((state.all topic).map StreamEntry.id).Nodup := by
  have numbers : (state.all topic).map StreamEntry.id =
      (List.range (state.all topic).length).map fun k => idOf (k + 1) := by
    apply List.ext_getElem?
    intro k
    rw [List.getElem?_map, List.getElem?_map]
    rcases Nat.lt_or_ge k (state.all topic).length with inside | beyond
    · have found : (state.all topic)[k]? = some (state.all topic)[k] := List.getElem?_eq_getElem inside
      rw [found, List.getElem?_range inside, Option.map_some, Option.map_some, numbered topic k _ found]
    · rw [List.getElem?_eq_none beyond, List.getElem?_eq_none (List.length_range ▸ beyond)]
      rfl
  rw [numbers]
  apply List.Nodup.map _ List.nodup_range
  intro i j same
  exact Nat.add_right_cancel (idOf_inj.1 same)

theorem Numbered.nodup (numbered : state.Numbered) (topic : String) : (state.all topic).Nodup :=
  (numbered.nodup_ids topic).of_map _

/-- What comes after the `k`-th entry, asked for by its id. -/
theorem after_eq_drop_iff (numbered : state.Numbered) {topic : String} {k : Nat} (pos : 1 ≤ k)
    (le : k ≤ (state.all topic).length) : state.after topic (idOf k) = (state.all topic).drop k ↔
      Decimal.InOrder k (state.all topic).length := by
  rw [after_idOf, filter_eq_drop_iff (numbered.nodup topic),
    ← Decimal.lt_iff_lt_iff_inOrder (t := ['0']) dash_lt_digit pos le]
  simp only [← idOf_lt_iff, decide_eq_true_eq]
  constructor
  · intro places j one small
    obtain ⟨i, rfl⟩ : ∃ i, j = i + 1 := ⟨j - 1, by omega⟩
    have found : (state.all topic)[i]? = some (state.all topic)[i] := List.getElem?_eq_getElem (by omega)
    rw [← numbered topic i _ found, places i _ found]
    omega
  · intro order i entry found
    have small : i < (state.all topic).length := (List.getElem?_eq_some_iff.1 found).1
    rw [numbered topic i entry found, order (i + 1) (by omega) (by omega)]
    omega

end StreamState

/-! ## A reader -/

/-- The store, the id of the last entry seen, and all entries received. -/
structure Reader where
  store : StreamState
  lastSeen : String
  received : List StreamEntry

inductive Reader.Action where
  | push (p : Push)
  | poll

/-- Anyone pushes, or the reader asks for what came after the last entry it saw. -/
def Reader.step (topic : String) (s : Reader) : Reader.Action → Option Reader
  | .push p => some { s with store := (s.store.push p.topic p.fields).2 }
  | .poll =>
    let entries := s.store.after topic s.lastSeen
    some {
      s with
      lastSeen := (entries.getLast?.map StreamEntry.id).getD s.lastSeen
      received := s.received ++ entries
    }

/-- A reader that has seen the entry with this id. -/
def reader (topic : String) (store : StreamState) (lastSeen : String) : Lts Reader Reader.Action where
  init := ⟨store, lastSeen, []⟩
  step := Reader.step topic

/-- The pushes of a run. -/
def Reader.pushes (as : List Reader.Action) : List Push :=
  as.filterMap fun a => match a with
    | .push p => some p
    | .poll => none

/-- A poll asks with an id that is in order among those of the topic. -/
def Reader.InOrder (topic : String) (s : Reader) : Reader.Action → Prop
  | .push _ => True
  | .poll => ∃ k, s.lastSeen = StreamState.idOf k ∧ Decimal.InOrder k (s.store.all topic).length

namespace Reader
open StreamState

variable {topic : String} {start : StreamState} {first : Nat} {s s' : Reader}

/-- The reader has seen the first `k` entries, and received those of them that are not among the
`first` ones. -/
structure UpTo (topic : String) (first k : Nat) (s : Reader) : Prop where
  numbered : s.store.Numbered
  lastSeen : s.lastSeen = idOf k
  least : first ≤ k
  most : k ≤ (s.store.all topic).length
  received : s.received = ((s.store.all topic).take k).drop first

theorem UpTo.push {k : Nat} (upTo : UpTo topic first k s) (p : Push) :
    UpTo topic first k { s with store := (s.store.push p.topic p.fields).2 } := by
  have grown : ∃ new, (s.store.push p.topic p.fields).2.all topic = s.store.all topic ++ new := by
    rw [all_push]
    split
    · rename_i same
      exact ⟨_, by rw [same]⟩
    · exact ⟨[], (List.append_nil _).symm⟩
  obtain ⟨new, all⟩ := grown
  refine ⟨upTo.numbered.push p.topic p.fields, upTo.lastSeen, upTo.least, ?_, ?_⟩
  · rw [all, List.length_append]
    exact Nat.le_add_right_of_le upTo.most
  · rw [all, List.take_append_of_le_length upTo.most]
    exact upTo.received

/-- A poll in order receives the rest. -/
theorem UpTo.poll {k : Nat} (pos : 1 ≤ first) (upTo : UpTo topic first k s) (order : InOrder topic s .poll)
    (taken : step topic s .poll = some s') : UpTo topic first (s'.store.all topic).length s' := by
  obtain ⟨k', last, order⟩ := order
  obtain rfl := idOf_inj.1 (upTo.lastSeen.symm.trans last)
  have least := upTo.least
  have rest := (after_eq_drop_iff upTo.numbered (Nat.le_trans pos least) upTo.most).2 order
  obtain rfl := Option.some.inj taken
  refine ⟨upTo.numbered, ?_, Nat.le_trans least upTo.most, Nat.le_refl _, ?_⟩
  · show ((s.store.after topic s.lastSeen).getLast?.map StreamEntry.id).getD s.lastSeen = _
    rw [last, rest, List.getLast?_drop]
    split
    · rename_i all
      rw [Nat.le_antisymm upTo.most all]
      rfl
    · rename_i more
      obtain ⟨n, length⟩ : ∃ n, (s.store.all topic).length = n + 1 := ⟨(s.store.all topic).length - 1, by omega⟩
      have found : (s.store.all topic)[n]? = some (s.store.all topic)[n] := List.getElem?_eq_getElem (by omega)
      rw [List.getLast?_eq_getElem?, length, Nat.add_sub_cancel, found, Option.map_some, Option.getD_some,
        upTo.numbered topic n _ found]
  · show s.received ++ s.store.after topic s.lastSeen = _
    have within : first ≤ ((s.store.all topic).take k).length := by
      rw [List.length_take, Nat.min_eq_left upTo.most]
      exact least
    rw [last, rest, upTo.received, List.take_length, ← List.drop_append_of_le_length within, List.take_append_drop]

/-- The store at the end of a run has all its pushes. -/
theorem store_of_exec {as : List Action} (run : (reader topic start (idOf first)).exec s as = some s') :
    s'.store = s.store.run (pushes as) := by
  induction as generalizing s with
  | nil =>
    cases run
    rfl
  | cons a as ih =>
    obtain ⟨t, taken, rest⟩ := Option.bind_eq_some_iff.1 run
    cases a with
    | push p =>
      obtain rfl := Option.some.inj taken
      exact ih rest
    | poll =>
      obtain rfl := Option.some.inj taken
      have later := ih rest
      exact later

/-- After polls in order the reader has received a stretch of entries without a gap. -/
theorem exists_upTo {as : List Action} (pos : 1 ≤ first) (upTo : UpTo topic first first s)
    (along : (reader topic start (idOf first)).Along (InOrder topic) s as)
    (run : (reader topic start (idOf first)).exec s as = some s') : ∃ k, UpTo topic first k s' := by
  refine Lts.Along.exec_invariant (I := fun s => ∃ k, UpTo topic first k s) ?_ ⟨first, upTo⟩ along run
  rintro s a s' ⟨k, upTo⟩ order taken
  cases a with
  | push p =>
    obtain rfl := Option.some.inj taken
    exact ⟨k, upTo.push p⟩
  | poll => exact ⟨_, upTo.poll pos order taken⟩

/-- Right after a poll it has received everything since the entry it had seen at first. -/
theorem received_of_poll {as : List Action} (numbered : start.Numbered) (length : (start.all topic).length = first)
    (pos : 1 ≤ first)
    (along : (reader topic start (idOf first)).Along (InOrder topic) ⟨start, idOf first, []⟩ (as ++ [.poll]))
    (run : (reader topic start (idOf first)).exec ⟨start, idOf first, []⟩ (as ++ [.poll]) = some s') :
    s'.received = pushed topic start (pushes as) := by
  have upTo : UpTo topic first first ⟨start, idOf first, []⟩ := by
    refine ⟨numbered, rfl, Nat.le_refl _, Nat.le_of_eq length.symm, ?_⟩
    show [] = ((start.all topic).take first).drop first
    rw [← length, List.take_length, List.drop_length]
  rw [Lts.exec_append] at run
  obtain ⟨t, before, last⟩ := Option.bind_eq_some_iff.1 run
  obtain ⟨t', taken, done⟩ := Option.bind_eq_some_iff.1 last
  obtain rfl := Option.some.inj done
  obtain ⟨earlier, final⟩ := Lts.along_append.1 along
  obtain ⟨k, reached⟩ := exists_upTo pos upTo earlier before
  have all := reached.poll pos (final t before t' taken).1 taken
  have store : t'.store = start.run (pushes as) := by
    obtain rfl := Option.some.inj taken
    exact store_of_exec before
  rw [all.received, List.take_length, store, all_run]
  exact List.drop_left' length

end Reader

/-! ## What `after` misses -/

namespace StreamState

variable {topic id : String} {fields : List (String × String)} {before : List Push} {state : StreamState}

/-- **Reading on in the mock store.** A push to a topic is its `k`-th and returns an id; later there are `n`
entries. Asking for what comes after this id gives exactly the entries pushed since if and only if
`k = 1`, or all digits of `k` but the last are nines and `n` has as many digits as `k`. A reader that
starts from this id and whose polls all ask so has received, at every poll, exactly the entries
pushed since, in order. -/
theorem after_returns_later_iff (returned : (run default before).push topic fields = (id, state)) :
    (∀ later : List Push, (state.run later).after topic id = pushed topic state later ↔
      Decimal.InOrder (count topic before + 1) (count topic before + 1 + count topic later)) ∧
    ∀ (as : List Reader.Action) (s : Reader),
      (reader topic state id).Along (Reader.InOrder topic) (reader topic state id).init (as ++ [.poll]) →
      (reader topic state id).exec (reader topic state id).init (as ++ [.poll]) = some s →
      s.received = pushed topic state (Reader.pushes as) := by
  have numbered : state.Numbered := by
    have := (numbered_default.run before).push topic fields
    rwa [returned] at this
  have earlier : ((run default before).all topic).length = count topic before := by
    rw [all_run, List.length_append, length_pushed]
    exact Nat.zero_add _
  have named : id = idOf (count topic before + 1) := by
    rw [← earlier, ← push_fst (run default before) topic fields, returned]
  have length : (state.all topic).length = count topic before + 1 := by
    have all := all_push (run default before) topic fields topic
    rw [returned, if_pos rfl] at all
    rw [all, List.length_append, List.length_singleton, earlier]
  subst named
  refine ⟨fun later => ?_, fun as s => Reader.received_of_poll numbered length (Nat.succ_pos _)⟩
  have total : ((state.run later).all topic).length = count topic before + 1 + count topic later := by
    rw [all_run, List.length_append, length, length_pushed]
  rw [← total, ← after_eq_drop_iff (numbered.run later) (Nat.succ_pos _) (by omega), all_run,
    List.drop_left' length]

/-- Ten entries after the first one are found, and a reader gets the second one. -/
theorem after_returns_later_first :
    ((push default "topic" []).2.run (List.replicate 10 ⟨"topic", []⟩)).after "topic" "1-0" =
      pushed "topic" (push default "topic" []).2 (List.replicate 10 ⟨"topic", []⟩) ∧
    ∀ s, (reader "topic" (push default "topic" []).2 "1-0").exec ⟨(push default "topic" []).2, "1-0", []⟩
      [.push ⟨"topic", []⟩, .poll] = some s → s.received = [⟨"2-0", []⟩] := by
  have returned : (run default []).push "topic" [] = ("1-0", (push default "topic" []).2) := rfl
  have reads := after_returns_later_iff returned
  refine ⟨(reads.1 _).2 (.inl rfl), fun s run => ?_⟩
  have order : (reader "topic" (push default "topic" []).2 "1-0").Along (Reader.InOrder "topic")
      ⟨(push default "topic" []).2, "1-0", []⟩ [.push ⟨"topic", []⟩, .poll] := by
    intro t taken
    obtain rfl := Option.some.inj taken
    exact ⟨trivial, fun u _ => ⟨⟨1, rfl, .inl rfl⟩, trivial⟩⟩
  exact (reads.2 [.push ⟨"topic", []⟩] s order run).trans (by decide)

/-- Whoever has seen nine entries does not get the tenth. -/
theorem tenth_is_missed : ¬ ∀ (before later : List Push) (topic : String) (fields : List (String × String)),
    (((run default before).push topic fields).2.run later).after topic ((run default before).push topic fields).1 =
      pushed topic ((run default before).push topic fields).2 later := by
  intro reads
  exact absurd (reads (List.replicate 8 ⟨"topic", []⟩) [⟨"topic", []⟩] "topic" []) (by decide)

end StreamState

end PubSub.Redis.TestingUtils
