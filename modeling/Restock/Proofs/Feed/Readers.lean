import Restock.Feed
import Restock.Proofs.Trail
import Restock.Table

/-! The readers of a feed.

A read has two halves: the reader finds that there is a wave it has not seen, and then it
takes the latest one (`Feed.glance`, `Feed.next_eq_halves`). Others may publish, read and
leave between the two, so the version is marked as seen twice. A `Readership` is a feed with
all who may publish to it and all who read it, and its acts are the halves of reads.

What counts is the news of a reader, the waves published since it got one or subscribed
(`newsFor`). A reader that is not in the middle of a read lags behind the feed by just its
news, and one that is has some (`Abreast`). So what a reader gets is always the last of its
news, it waits only while it has none, and the feed is closed to it only if nobody is left to
publish any (`reads_are_of_news`). -/
namespace Restock

namespace Feed

variable {α : Type}

/-- The first half of a read: an answer if there is nothing new, and otherwise none yet. -/
def glance (f : Feed α) (w : Watch) : Option (Next α) × Watch :=
  if w.seen = f.version then (some (if f.isClosed then .closed else .pending), w)
  else (none, f.subscribe)

/-- A read is its two halves with nothing in between; where there is no wave to be taken it
begins again. -/
theorem next_eq_halves (f : Feed α) (w : Watch) :
    f.next w = match f.glance w with
      | (some answer, w) => (answer, w)
      | (none, w) => match f.latest with
        | some wave => (.wave wave, f.subscribe)
        | none => ((f.glance w).1.getD .pending, f.subscribe) := by
  unfold next glance
  split
  · rfl
  · cases f.latest with
    | some wave => rfl
    | none => simp [subscribe]

end Feed

structure Reader where
  watch : Watch
  /-- Something new was found and is to be taken. -/
  alert : Bool
  deriving DecidableEq, Repr

/-- A feed, those who may publish to it, and its readers. -/
structure Readership (α : Type) where
  feed : Feed α
  handles : List Nat
  readers : Table Nat Reader

namespace Readership

variable {α : Type}

def new : Readership α := ⟨.new, [0], []⟩

inductive Act (α : Type)
  | publish (handle : Nat) (wave : α)
  | share (handle new : Nat)
  | leave (handle : Nat)
  | subscribe (handle reader : Nat)
  /-- The first half of a read. -/
  | look (reader : Nat)
  /-- The second half. -/
  | take (reader : Nat)

/-- An answer to a reader. -/
abbrev Answer (α : Type) := Nat × Next α

def set (s : Readership α) (k : Nat) (r : Reader) : Readership α :=
  { s with readers := s.readers.put k r }

def take? (s : Readership α) : Act α → Option (Readership α × List (Answer α))
  | .publish h v => if h ∈ s.handles then some ({ s with feed := s.feed.publish v }, []) else none
  | .share h new =>
    if h ∈ s.handles then
      some ({ s with feed := s.feed.share, handles := s.handles ++ [new] }, [])
    else none
  | .leave h =>
    if h ∈ s.handles then
      some ({ s with feed := s.feed.leave, handles := s.handles.erase h }, [])
    else none
  | .subscribe h k =>
    if h ∈ s.handles ∧ s.readers.get? k = none then some (s.set k ⟨s.feed.subscribe, false⟩, [])
    else none
  | .look k =>
    match s.readers.get? k with
    | some ⟨w, false⟩ =>
      match s.feed.glance w with
      | (some answer, _) => some (s, [(k, answer)])
      | (none, w) => some (s.set k ⟨w, true⟩, [])
    | _ => none
  | .take k =>
    match s.readers.get? k with
    | some ⟨_, true⟩ =>
      some (s.set k ⟨s.feed.subscribe, false⟩, s.feed.latest.toList.map fun v => (k, .wave v))
    | _ => none

/-- What an act does. -/
inductive Does (s : Readership α) : Act α → Readership α → List (Answer α) → Prop
  | publish {h : Nat} {v : α} (holds : h ∈ s.handles) :
    Does s (.publish h v) { s with feed := s.feed.publish v } []
  | share {h new : Nat} (holds : h ∈ s.handles) :
    Does s (.share h new) { s with feed := s.feed.share, handles := s.handles ++ [new] } []
  | leave {h : Nat} (holds : h ∈ s.handles) :
    Does s (.leave h) { s with feed := s.feed.leave, handles := s.handles.erase h } []
  | subscribe {h k : Nat} (holds : h ∈ s.handles) (stranger : s.readers.get? k = none) :
    Does s (.subscribe h k) (s.set k ⟨s.feed.subscribe, false⟩) []
  | wait {k : Nat} {w : Watch} (reads : s.readers.get? k = some ⟨w, false⟩)
    (level : w.seen = s.feed.version) :
    Does s (.look k) s [(k, if s.feed.isClosed then .closed else .pending)]
  | find {k : Nat} {w : Watch} (reads : s.readers.get? k = some ⟨w, false⟩)
    (lags : w.seen ≠ s.feed.version) : Does s (.look k) (s.set k ⟨s.feed.subscribe, true⟩) []
  | take {k : Nat} {w : Watch} (reads : s.readers.get? k = some ⟨w, true⟩) :
    Does s (.take k) (s.set k ⟨s.feed.subscribe, false⟩)
      (s.feed.latest.toList.map fun v => (k, .wave v))

abbrev Legs (α : Type) := List (Leg (Readership α) (Act α) (Answer α))

/-! ### What has happened -/

def Act.wave? : Act α → Option α
  | .publish _ v => some v
  | _ => none

def Answer.wave? (k : Nat) : Answer α → Option α
  | (j, .wave v) => if j = k then some v else none
  | _ => none

/-- All waves, in the order in which they were published. -/
def published (w : Legs α) : List α := w.filterMap fun l => l.input.wave?

/-- The waves published while somebody reads. -/
def offered (k : Nat) (l : Leg (Readership α) (Act α) (Answer α)) : List α :=
  if (l.before.readers.get? k).isSome then l.input.wave?.toList else []

/-- The waves published since a reader subscribed. -/
def offeredTo (k : Nat) (w : Legs α) : List α := w.flatMap (offered k)

/-- The waves that a reader got. -/
def returnedTo (k : Nat) (w : Legs α) : List α := (effectsOf w).filterMap (Answer.wave? k)

/-- All answers to a reader. -/
def answersTo (k : Nat) (w : Legs α) : List (Answer α) := (effectsOf w).filter fun a => a.1 = k

/-- The waves published since a reader last got one, or since it subscribed. -/
def newsFor (k : Nat) (w : Legs α) : List α :=
  w.foldl (fun news l =>
    if l.effects.filterMap (Answer.wave? k) = [] then news ++ offered k l else []) []

section
variable {s t : Readership α} {w : Legs α} {l : Leg (Readership α) (Act α) (Answer α)} {i : Act α}
  {es : List (Answer α)} {k j : Nat} {r : Reader}

@[simp] theorem feed_set : (s.set k r).feed = s.feed := rfl

@[simp] theorem reader_set :
    (s.set k r).readers.get? j = if k = j then some r else s.readers.get? j :=
  Table.get?_put ..

theorem does_of_take? (taken : s.take? i = some (t, es)) : Does s i t es := by
  cases i with
  | publish h v =>
    obtain ⟨holds, same⟩ := Option.ite_none_right_eq_some.1 taken
    cases same
    exact .publish holds
  | share h new =>
    obtain ⟨holds, same⟩ := Option.ite_none_right_eq_some.1 taken
    cases same
    exact .share holds
  | leave h =>
    obtain ⟨holds, same⟩ := Option.ite_none_right_eq_some.1 taken
    cases same
    exact .leave holds
  | subscribe h k =>
    obtain ⟨⟨holds, stranger⟩, same⟩ := Option.ite_none_right_eq_some.1 taken
    cases same
    exact .subscribe holds stranger
  | look k =>
    rw [take?] at taken
    split at taken
    · next w reads =>
      by_cases level : w.seen = s.feed.version
      · rw [Feed.glance, if_pos level] at taken
        cases taken
        exact .wait reads level
      · rw [Feed.glance, if_neg level] at taken
        cases taken
        exact .find reads level
    · contradiction
  | take k =>
    rw [take?] at taken
    split at taken
    · next w reads =>
      cases taken
      exact .take reads
    · contradiction

theorem published_snoc : published (w ++ [l]) = published w ++ l.input.wave?.toList := by
  cases h : l.input.wave? <;> simp [published, h]

theorem offeredTo_snoc : offeredTo k (w ++ [l]) = offeredTo k w ++ offered k l := by
  simp [offeredTo]

theorem returnedTo_snoc :
    returnedTo k (w ++ [l]) = returnedTo k w ++ l.effects.filterMap (Answer.wave? k) := by
  simp [returnedTo]

theorem newsFor_snoc : newsFor k (w ++ [l]) =
    if l.effects.filterMap (Answer.wave? k) = [] then newsFor k w ++ offered k l else [] := by
  simp [newsFor]

theorem offered_of_wave?_none (silent : l.input.wave? = none) : offered k l = [] := by
  rw [offered, silent]
  exact ite_self _

/-! ### Readers keep abreast of the feed -/

/-- What the feed and a reader know of what has happened. -/
structure Abreast (k : Nat) (w : Legs α) (s : Readership α) : Prop where
  version : s.feed.version = (published w).length
  latest : s.feed.latest = (published w).getLast?
  holders : s.feed.holders = s.handles.length
  /-- There is no news for those who do not read. -/
  strange : s.readers.get? k = none →
    offeredTo k w = [] ∧ returnedTo k w = [] ∧ newsFor k w = []
  /-- What a reader got is from before the news. -/
  earlier : ∃ early, offeredTo k w = early ++ newsFor k w ∧ (returnedTo k w).Sublist early
  recent : newsFor k w <:+ published w
  resting : ∀ watch, s.readers.get? k = some ⟨watch, false⟩ →
    watch.seen + (newsFor k w).length = s.feed.version
  alert : ∀ watch, s.readers.get? k = some ⟨watch, true⟩ → newsFor k w ≠ []

theorem abreast_new : Abreast k [] (new : Readership α) :=
  { version := rfl, latest := rfl, holders := rfl
    strange := fun _ => ⟨rfl, rfl, rfl⟩
    earlier := ⟨[], rfl, .slnil⟩
    recent := List.suffix_refl _
    resting := fun _ reads => by contradiction
    alert := fun _ reads => by contradiction }

namespace Abreast

/-- Nothing is published, and the reader gets no wave. -/
theorem still (h : Abreast k w s) (silent : l.input.wave? = none)
    (nothing : l.effects.filterMap (Answer.wave? k) = [])
    (version : t.feed.version = s.feed.version) (latest : t.feed.latest = s.feed.latest)
    (holders : t.feed.holders = t.handles.length)
    (strange : t.readers.get? k = none → s.readers.get? k = none)
    (resting : ∀ watch, t.readers.get? k = some ⟨watch, false⟩ →
      watch.seen + (newsFor k w).length = s.feed.version)
    (alert : ∀ watch, t.readers.get? k = some ⟨watch, true⟩ → newsFor k w ≠ []) :
    Abreast k (w ++ [l]) t := by
  have waves : published (w ++ [l]) = published w := by
    rw [published_snoc, silent]
    exact List.append_nil _
  have offers : offeredTo k (w ++ [l]) = offeredTo k w := by
    rw [offeredTo_snoc, offered_of_wave?_none silent, List.append_nil]
  have returns : returnedTo k (w ++ [l]) = returnedTo k w := by
    rw [returnedTo_snoc, nothing, List.append_nil]
  have news : newsFor k (w ++ [l]) = newsFor k w := by
    rw [newsFor_snoc, if_pos nothing, offered_of_wave?_none silent, List.append_nil]
  constructor
  · rw [waves, version, h.version]
  · rw [waves, latest, h.latest]
  · exact holders
  · rw [offers, returns, news]
    exact fun gone => h.strange (strange gone)
  · rw [offers, returns, news]
    exact h.earlier
  · rw [news, waves]
    exact h.recent
  · rw [news, version]
    exact resting
  · rw [news]
    exact alert

/-- What another reader does. -/
theorem other (h : Abreast k w s) (apart : j ≠ k) (silent : i.wave? = none)
    (nothing : es.filterMap (Answer.wave? k) = []) :
    Abreast k (w ++ [⟨s, i, es, s.set j r⟩]) (s.set j r) := by
  have frame : (s.set j r).readers.get? k = s.readers.get? k := by
    rw [reader_set, if_neg apart]
  refine h.still silent nothing rfl rfl h.holders ?_ ?_ ?_
  · rw [frame]
    exact id
  · rw [frame]
    exact h.resting
  · rw [frame]
    exact h.alert

theorem publish {v : α} {n : Nat} (h : Abreast k w s) :
    Abreast k (w ++ [⟨s, .publish n v, [], { s with feed := s.feed.publish v }⟩])
      { s with feed := s.feed.publish v } := by
  let l : Leg (Readership α) (Act α) (Answer α) :=
    ⟨s, .publish n v, [], { s with feed := s.feed.publish v }⟩
  have waves : published (w ++ [l]) = published w ++ [v] := published_snoc
  have returns : returnedTo k (w ++ [l]) = returnedTo k w :=
    returnedTo_snoc.trans (List.append_nil _)
  have news : newsFor k (w ++ [l]) = newsFor k w ++ offered k l := newsFor_snoc
  have unread : ∀ r, s.readers.get? k = some r → offered k l = [v] := by
    intro r reads
    show (if (s.readers.get? k).isSome then [v] else []) = [v]
    rw [reads]
    rfl
  have unheard : s.readers.get? k = none → offered k l = [] := by
    intro gone
    show (if (s.readers.get? k).isSome then [v] else []) = []
    rw [gone]
    rfl
  constructor
  · rw [waves, List.length_append]
    exact congrArg (· + 1) h.version
  · rw [waves, List.getLast?_concat]
    rfl
  · exact h.holders
  · intro gone
    obtain ⟨offers, none, old⟩ := h.strange gone
    rw [offeredTo_snoc, returns, news, unheard gone, offers, none, old]
    exact ⟨rfl, rfl, rfl⟩
  · obtain ⟨early, offers, got⟩ := h.earlier
    refine ⟨early, ?_, returns ▸ got⟩
    rw [offeredTo_snoc, news, offers, List.append_assoc]
  · rw [news, waves]
    cases reads : s.readers.get? k with
    | none =>
      rw [(h.strange reads).2.2, unheard reads]
      exact List.nil_suffix
    | some r =>
      obtain ⟨early, all⟩ := h.recent
      exact ⟨early, by rw [unread r reads, ← List.append_assoc, all]⟩
  · intro watch reads
    have lag := h.resting watch reads
    rw [news, unread _ reads, List.length_append]
    show watch.seen + ((newsFor k w).length + 1) = s.feed.version + 1
    omega
  · intro watch reads
    rw [news, unread _ reads]
    exact List.append_ne_nil_of_right_ne_nil _ (List.cons_ne_nil v [])

/-- The latest wave is the last of the news, if there are any. -/
theorem latest_of_news (h : Abreast k w s) (some : newsFor k w ≠ []) :
    ∃ v, s.feed.latest = .some v ∧ (published w).getLast? = .some v ∧
      (newsFor k w).getLast? = .some v := by
  have newest := List.getLast?_eq_some_getLast some
  have last : (published w).getLast? = .some ((newsFor k w).getLast some) := by
    obtain ⟨early, all⟩ := h.recent
    rw [← all, List.getLast?_append, newest, Option.some_or]
  exact ⟨_, h.latest.trans last, last, newest⟩

theorem take {watch : Watch} {v : α} (h : Abreast k w s)
    (reads : s.readers.get? k = some ⟨watch, true⟩) (latest : s.feed.latest = some v) :
    Abreast k (w ++ [⟨s, .take k, [(k, .wave v)], s.set k ⟨s.feed.subscribe, false⟩⟩])
      (s.set k ⟨s.feed.subscribe, false⟩) := by
  let l : Leg (Readership α) (Act α) (Answer α) :=
    ⟨s, .take k, [(k, .wave v)], s.set k ⟨s.feed.subscribe, false⟩⟩
  have wave : l.effects.filterMap (Answer.wave? k) = [v] := by simp [l, Answer.wave?]
  have waves : published (w ++ [l]) = published w := published_snoc.trans (List.append_nil _)
  have offers : offeredTo k (w ++ [l]) = offeredTo k w := by
    rw [offeredTo_snoc, offered_of_wave?_none rfl, List.append_nil]
  have returns : returnedTo k (w ++ [l]) = returnedTo k w ++ [v] := by rw [returnedTo_snoc, wave]
  have news : newsFor k (w ++ [l]) = [] := by
    rw [newsFor_snoc, wave]
    exact if_neg (List.cons_ne_nil v [])
  have self : (s.set k ⟨s.feed.subscribe, false⟩).readers.get? k =
      some ⟨s.feed.subscribe, false⟩ := Table.get?_put_self ..
  constructor
  · rw [waves]
    exact h.version
  · rw [waves]
    exact h.latest
  · exact h.holders
  · rw [self]
    exact fun gone => by contradiction
  · obtain ⟨early, all, got⟩ := h.earlier
    obtain ⟨u, newest, -, last⟩ := h.latest_of_news (h.alert watch reads)
    rw [latest] at newest
    cases newest
    refine ⟨early ++ newsFor k w, ?_, ?_⟩
    · rw [offers, all, news, List.append_nil]
    · rw [returns]
      exact got.append (List.singleton_sublist.2 (List.mem_of_getLast? last))
  · rw [news]
    exact List.nil_suffix
  · rw [self, news]
    intro watch same
    cases same
    rfl
  · rw [self]
    exact fun watch same => by cases same

/-- An act keeps every reader abreast. -/
theorem does (h : Abreast k w s) (does : Does s i t es) : Abreast k (w ++ [⟨s, i, es, t⟩]) t := by
  cases does with
  | publish => exact h.publish
  | share holds =>
    refine h.still rfl rfl rfl rfl ?_ id h.resting h.alert
    simp [Feed.share, h.holders]
  | leave holds =>
    refine h.still rfl rfl rfl rfl ?_ id h.resting h.alert
    simp [Feed.leave, h.holders, List.length_erase_of_mem holds]
  | @subscribe n j holds stranger =>
    by_cases same : j = k
    · subst same
      have none := (h.strange stranger).2.2
      refine h.still rfl rfl rfl rfl h.holders (fun _ => stranger) ?_ ?_
      · rw [reader_set, if_pos rfl, none]
        intro watch same
        cases same
        rfl
      · rw [reader_set, if_pos rfl]
        exact fun watch same => by cases same
    · exact h.other same rfl rfl
  | @wait j watch reads level =>
    refine h.still rfl ?_ rfl rfl h.holders id h.resting h.alert
    cases s.feed.isClosed <;> rfl
  | @find j watch reads lags =>
    by_cases same : j = k
    · subst same
      refine h.still rfl rfl rfl rfl h.holders ?_ ?_ ?_
      · rw [reader_set, if_pos rfl]
        exact fun gone => by contradiction
      · rw [reader_set, if_pos rfl]
        exact fun watch same => by cases same
      · intro _ _ none
        have lag := h.resting watch reads
        rw [none] at lag
        exact lags lag
    · exact h.other same rfl rfl
  | @take j watch reads =>
    by_cases same : j = k
    · subst same
      obtain ⟨v, latest, -⟩ := h.latest_of_news (h.alert watch reads)
      rw [latest]
      exact h.take reads latest
    · apply h.other same rfl
      cases s.feed.latest with
      | none => rfl
      | some v => simp [Answer.wave?, same]

end Abreast

theorem abreast_of_trail (trail : Trail take? new w s) (k : Nat) : Abreast k w s := by
  induction trail with
  | rest => exact abreast_new
  | step past taken ih => exact ih.does (does_of_take? taken)

theorem length_newsFor_le (w v : Legs α) :
    (newsFor k (w ++ v)).length ≤ (newsFor k w).length + (published v).length := by
  induction v generalizing w with
  | nil => simp [published]
  | cons l v ih =>
    have rest := ih (w ++ [l])
    have first : (newsFor k (w ++ [l])).length ≤
        (newsFor k w).length + l.input.wave?.toList.length := by
      rw [newsFor_snoc, offered]
      split
      · rw [List.length_append]
        split <;> simp
      · exact Nat.zero_le _
    have all : published (l :: v) = l.input.wave?.toList ++ published v := by
      cases wave : l.input.wave? <;> simp [published, wave]
    rw [all, List.length_append, show w ++ l :: v = w ++ [l] ++ v by simp]
    omega

/-! ### Answers -/

/-- The answer that a reader is due: the latest wave if it has news, and otherwise to wait
while somebody may publish. -/
def Due (k : Nat) (w : Legs α) (handles : List Nat) : Next α → Prop
  | .wave v => (published w).getLast? = some v ∧ (newsFor k w).getLast? = some v
  | .pending => newsFor k w = [] ∧ handles ≠ []
  | .closed => newsFor k w = [] ∧ handles = []

namespace Abreast

theorem due_without_news (h : Abreast k w s) (none : newsFor k w = []) :
    Due k w s.handles (if s.feed.isClosed then .closed else .pending) := by
  have closed : s.feed.isClosed = true ↔ s.handles = [] := by
    rw [Feed.isClosed, h.holders, decide_eq_true_iff]
    exact List.length_eq_zero_iff
  split
  · next gone => exact ⟨none, closed.1 gone⟩
  · next left => exact ⟨none, mt closed.2 left⟩

theorem news_of_level {watch : Watch} (h : Abreast k w s)
    (reads : s.readers.get? k = some ⟨watch, false⟩) :
    newsFor k w = [] ↔ watch.seen = s.feed.version := by
  have lag := h.resting watch reads
  rw [← List.length_eq_zero_iff]
  omega

theorem due_of_does {a : Next α} (h : Abreast k w s) (does : Does s i t es)
    (answered : (k, a) ∈ es) : Due k w s.handles a := by
  cases does with
  | publish | share | leave | subscribe | find => contradiction
  | @wait j watch reads level =>
    obtain ⟨rfl, rfl⟩ := Prod.mk.inj (List.mem_singleton.1 answered)
    exact h.due_without_news ((h.news_of_level reads).2 level)
  | @take j watch reads =>
    obtain ⟨v, latest, same⟩ := List.mem_map.1 answered
    obtain ⟨rfl, rfl⟩ := Prod.mk.inj same
    obtain ⟨u, newest, last⟩ := h.latest_of_news (h.alert watch reads)
    rw [newest] at latest
    cases Option.mem_toList.1 latest
    exact last

/-- A read with nothing in between its halves is one of the feed alone. -/
theorem reading {watch : Watch} (h : Abreast k w s)
    (reads : s.readers.get? k = some ⟨watch, false⟩) :
    ∃ v t, Trail take? s v t ∧ effectsOf v = [(k, (s.feed.next watch).1)] ∧
      t.readers.get? k = some ⟨(s.feed.next watch).2, false⟩ := by
  rw [Feed.next_eq_halves, Feed.glance]
  by_cases level : watch.seen = s.feed.version
  · have look : s.take? (.look k) =
        some (s, [(k, if s.feed.isClosed then .closed else .pending)]) := by
      rw [take?, reads]
      simp only [Feed.glance, if_pos level]
    rw [if_pos level]
    exact ⟨_, s, .single look, rfl, reads⟩
  · have look : s.take? (.look k) = some (s.set k ⟨s.feed.subscribe, true⟩, []) := by
      rw [take?, reads]
      simp only [Feed.glance, if_neg level]
    obtain ⟨v, latest, -⟩ := h.latest_of_news (mt (h.news_of_level reads).1 level)
    have take : (s.set k ⟨s.feed.subscribe, true⟩).take? (.take k) =
        some ((s.set k ⟨s.feed.subscribe, true⟩).set k ⟨s.feed.subscribe, false⟩,
          [(k, .wave v)]) := by
      rw [take?, reader_set, if_pos rfl, feed_set, latest]
      rfl
    rw [if_neg level, latest]
    refine ⟨_, _, (Trail.single look).step take, rfl, ?_⟩
    rw [reader_set, if_pos rfl]

theorem due_next {watch : Watch} (h : Abreast k w s)
    (reads : s.readers.get? k = some ⟨watch, false⟩) :
    Due k w s.handles (s.feed.next watch).1 := by
  rw [Feed.next]
  split
  · next level => exact h.due_without_news ((h.news_of_level reads).2 level)
  · next lags =>
    obtain ⟨v, latest, last⟩ := h.latest_of_news (mt (h.news_of_level reads).1 lags)
    rw [latest]
    exact last

/-- Nothing that happens in the middle of a read keeps it from its wave. -/
theorem due_take {watch : Watch} (h : Abreast k w s)
    (reads : s.readers.get? k = some ⟨watch, true⟩) :
    ∃ v t, s.take? (.take k) = some (t, [(k, .wave v)]) ∧ Due k w s.handles (.wave v) := by
  obtain ⟨v, latest, last⟩ := h.latest_of_news (h.alert watch reads)
  refine ⟨v, s.set k ⟨s.feed.subscribe, false⟩, ?_, last⟩
  rw [take?, reads, latest]
  rfl

end Abreast

/-! ### Readers apart -/

def Act.reader? : Act α → Option Nat
  | .subscribe _ j | .look j | .take j => some j
  | _ => none

/-- All acts but those of other readers. -/
def actsFor (k : Nat) (w : Legs α) : List (Act α) :=
  (w.map Leg.input).filter fun i => i.reader?.all fun j => j = k

/-- What there is if nobody else reads. -/
def view (k : Nat) (s : Readership α) : Feed α × List Nat × Option Reader :=
  (s.feed, s.handles, s.readers.get? k)

theorem view_set : (s.set j r).view k =
    (s.feed, s.handles, if j = k then some r else s.readers.get? k) := by
  rw [view, reader_set]
  rfl

/-- What another reader does is not seen. -/
theorem view_of_other (does : Does s i t es) (reader : i.reader? = some j) (apart : j ≠ k) :
    t.view k = s.view k ∧ es.filter (fun a => a.1 = k) = [] := by
  cases does with
  | publish | share | leave => contradiction
  | subscribe | find =>
    cases reader
    rw [view_set, if_neg apart]
    exact ⟨rfl, rfl⟩
  | wait =>
    cases reader
    exact ⟨rfl, List.filter_eq_nil_iff.2 fun a there => by
      rw [List.mem_singleton.1 there]
      simpa using apart⟩
  | take =>
    cases reader
    rw [view_set, if_neg apart]
    refine ⟨rfl, List.filter_eq_nil_iff.2 fun a there => ?_⟩
    obtain ⟨v, -, rfl⟩ := List.mem_map.1 there
    simpa using apart

/-- All else does what it would do if nobody else read. -/
theorem take?_of_view {u : Readership α} (does : Does s i t es)
    (mine : ∀ j, i.reader? = some j → j = k) (same : u.view k = s.view k) :
    ∃ u', u.take? i = some (u', es) ∧ u'.view k = t.view k := by
  obtain ⟨feed, rest⟩ := Prod.mk.inj same
  obtain ⟨handles, reader⟩ := Prod.mk.inj rest
  have moved : ∀ r, (u.set k r).view k = (s.set k r).view k := by
    intro r
    rw [view_set, view_set, feed, handles, reader]
  cases does with
  | @publish h v holds =>
    refine ⟨{ u with feed := u.feed.publish v }, ?_, ?_⟩
    · rw [take?, if_pos (handles ▸ holds)]
    · show (u.feed.publish v, u.handles, u.readers.get? k) = _
      rw [feed, handles, reader]
      rfl
  | @share h new holds =>
    refine ⟨{ u with feed := u.feed.share, handles := u.handles ++ [new] }, ?_, ?_⟩
    · rw [take?, if_pos (handles ▸ holds)]
    · show (u.feed.share, u.handles ++ [new], u.readers.get? k) = _
      rw [feed, handles, reader]
      rfl
  | @leave h holds =>
    refine ⟨{ u with feed := u.feed.leave, handles := u.handles.erase h }, ?_, ?_⟩
    · rw [take?, if_pos (handles ▸ holds)]
    · show (u.feed.leave, u.handles.erase h, u.readers.get? k) = _
      rw [feed, handles, reader]
      rfl
  | subscribe holds stranger =>
    obtain rfl := mine _ rfl
    refine ⟨_, ?_, moved _⟩
    rw [take?, if_pos ⟨handles ▸ holds, reader.trans stranger⟩, feed]
  | wait reads level =>
    obtain rfl := mine _ rfl
    refine ⟨u, ?_, same⟩
    rw [take?, reader, reads]
    simp only [Feed.glance, feed, if_pos level]
  | find reads lags =>
    obtain rfl := mine _ rfl
    refine ⟨_, ?_, moved _⟩
    rw [take?, reader, reads]
    simp only [Feed.glance, feed, if_neg lags]
  | take reads =>
    obtain rfl := mine _ rfl
    refine ⟨_, ?_, moved _⟩
    rw [take?, reader, reads]
    simp only [feed]

theorem actsFor_snoc : actsFor k (w ++ [l]) =
    actsFor k w ++ if l.input.reader?.all (fun j => j = k) then [l.input] else [] := by
  cases mine : l.input.reader?.all fun j => j = k <;> simp [actsFor, mine]

theorem answersTo_snoc :
    answersTo k (w ++ [l]) = answersTo k w ++ l.effects.filter fun a => a.1 = k := by
  simp [answersTo]

/-- A reader can be by itself. -/
theorem alone (trail : Trail take? new w s) (k : Nat) :
    ∃ v t, Trail take? new v t ∧ v.map Leg.input = actsFor k w ∧ answersTo k v = answersTo k w ∧
      t.view k = s.view k := by
  induction trail with
  | rest => exact ⟨[], new, .rest, rfl, rfl, rfl⟩
  | @step w s s' i es past taken ih =>
    obtain ⟨v, t, single, acts, answers, same⟩ := ih
    have does := does_of_take? taken
    by_cases other : ∃ j, i.reader? = some j ∧ j ≠ k
    · obtain ⟨j, reader, apart⟩ := other
      obtain ⟨unseen, unheard⟩ := view_of_other does reader apart
      refine ⟨v, t, single, ?_, ?_, same.trans unseen.symm⟩
      · rw [actsFor_snoc, acts, reader]
        simp [apart]
      · rw [answersTo_snoc, answers]
        exact (List.append_nil _).symm.trans (congrArg _ unheard.symm)
    · have mine : ∀ j, i.reader? = some j → j = k := fun j reader =>
        Classical.byContradiction fun apart => other ⟨j, reader, apart⟩
      obtain ⟨t', step, same⟩ := take?_of_view does mine same
      refine ⟨_, t', single.step step, ?_, ?_, same⟩
      · rw [actsFor_snoc, List.map_append, acts, if_pos]
        · rfl
        · cases reader : i.reader? with
          | none => rfl
          | some j => simpa using mine j reader
      · rw [answersTo_snoc, answersTo_snoc, answers]

/-- Something is published between any two waves that a reader gets. -/
theorem published_between {past mid later : Legs α} {m : Leg (Readership α) (Act α) (Answer α)}
    {u v : α} (trail : Trail take? new w s) (split : w = past ++ l :: (mid ++ m :: later))
    (one : (k, .wave u) ∈ l.effects) (two : (k, .wave v) ∈ m.effects) :
    (published past).length < (published (past ++ l :: mid)).length := by
  have again : w = (past ++ [l]) ++ mid ++ m :: later := by simp [split]
  obtain ⟨before, taken, -⟩ := (again ▸ trail).reach
  have news : newsFor k ((past ++ [l]) ++ mid) ≠ [] := by
    intro none
    have due := ((abreast_of_trail before k).due_of_does (does_of_take? taken) two).2
    rw [none] at due
    contradiction
  have read : newsFor k (past ++ [l]) = [] := by
    rw [newsFor_snoc, if_neg]
    intro none
    have wave := List.filterMap_eq_nil_iff.1 none _ one
    simp [Answer.wave?] at wave
  have some : 0 < (published mid).length := by
    have bound := length_newsFor_le (k := k) (past ++ [l]) mid
    rw [read, List.length_nil, Nat.zero_add] at bound
    exact Nat.lt_of_lt_of_le (List.length_pos_iff.2 news) bound
  have all : published (past ++ l :: mid) =
      published past ++ (l.input.wave?.toList ++ published mid) := by
    rw [show past ++ l :: mid = past ++ [l] ++ mid by simp, published, List.filterMap_append]
    exact (congrArg (· ++ _) published_snoc).trans (List.append_assoc ..)
  rw [all, List.length_append, List.length_append]
  omega

/-- What a reader gets is a subsequence of the waves published since it subscribed, with
something new each time, and every answer is the one it is due. At rest it can read as the
feed alone would have it; in the middle of a read there is a wave to be taken. It would get
the same if nobody else read, and other readers cannot make a difference. -/
theorem reads_are_of_news (trail : Trail take? new w s) (k : Nat) :
    (returnedTo k w).Sublist (offeredTo k w) ∧
    (∀ past l mid m later u v, w = past ++ l :: (mid ++ m :: later) →
      (k, .wave u) ∈ l.effects → (k, .wave v) ∈ m.effects →
      (published past).length < (published (past ++ l :: mid)).length) ∧
    (∀ past l later a, w = past ++ l :: later → (k, a) ∈ l.effects →
      Due k past l.before.handles a) ∧
    (∀ watch, s.readers.get? k = some ⟨watch, false⟩ →
      Due k w s.handles (s.feed.next watch).1 ∧
      ∃ v t, Trail take? s v t ∧ effectsOf v = [(k, (s.feed.next watch).1)] ∧
        t.readers.get? k = some ⟨(s.feed.next watch).2, false⟩) ∧
    (∀ watch, s.readers.get? k = some ⟨watch, true⟩ →
      ∃ v t, s.take? (.take k) = some (t, [(k, .wave v)]) ∧ Due k w s.handles (.wave v)) ∧
    (∃ v t, Trail take? new v t ∧ v.map Leg.input = actsFor k w ∧
      answersTo k v = answersTo k w ∧ t.view k = s.view k) ∧
    ∀ w' s', Trail take? new w' s' → actsFor k w' = actsFor k w →
      answersTo k w' = answersTo k w ∧ s'.view k = s.view k := by
  have abreast := abreast_of_trail trail k
  refine ⟨?_, ?_, ?_, ?_, ?_, alone trail k, ?_⟩
  · obtain ⟨early, offers, got⟩ := abreast.earlier
    rw [offers]
    exact got.trans (List.sublist_append_left early _)
  · exact fun past l mid m later u v split => published_between trail split
  · intro past l later a split answered
    obtain ⟨before, taken, -⟩ := (split ▸ trail).reach
    exact (abreast_of_trail before k).due_of_does (does_of_take? taken) answered
  · exact fun watch reads => ⟨abreast.due_next reads, abreast.reading reads⟩
  · exact fun watch reads => abreast.due_take reads
  · intro w' s' trail' acts
    obtain ⟨v, t, single, inputs, answers, same⟩ := alone trail k
    obtain ⟨v', t', single', inputs', answers', same'⟩ := alone trail' k
    obtain ⟨rfl, rfl⟩ := single'.determined single (inputs'.trans (acts.trans inputs.symm))
    exact ⟨answers'.symm.trans answers, same'.symm.trans same⟩

end

/-- One of two readers is overtaken in the middle of a read, and the feed is closed. -/
def evening : List (Act Nat) :=
  [.publish 0 1, .subscribe 0 7, .subscribe 0 8, .look 7, .share 0 1, .publish 1 2, .look 7,
    .look 8, .take 8, .publish 0 3, .take 7, .leave 0, .publish 1 4, .leave 1, .look 7, .take 7,
    .look 7, .look 8]

theorem reads_of_an_evening :
    ∃ w s v t, Trail take? (new (α := Nat)) w s ∧ Trail take? new v t ∧
      (returnedTo 7 w).Sublist (offeredTo 7 w) ∧ offeredTo 7 w = [2, 3, 4] ∧
      answersTo 7 w = [(7, .pending), (7, .wave 3), (7, .wave 4), (7, .closed)] ∧
      answersTo 7 v = answersTo 7 w ∧ v.length = 14 := by
  have trail := Trail.of_inputs take? (new (α := Nat)) evening
  obtain ⟨order, -, -, -, -, ⟨v, t, single, acts, answers, -⟩, -⟩ := reads_are_of_news trail 7
  refine ⟨_, _, v, t, trail, single, order, by decide, by decide, answers, ?_⟩
  have length := congrArg List.length acts
  rw [List.length_map] at length
  exact length.trans (by decide)

end Readership

end Restock
