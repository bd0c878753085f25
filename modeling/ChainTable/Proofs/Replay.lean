import ChainTable.Proofs.Report

/-! # What the log of a run tells

Whoever reads the log of a table from the start can follow its capacity and the number of open
cursors: every record fits what the ones before it say (`Gauge.replay`).  And nothing is left
out, for each call reports the resize it has made, and the one that has failed, with the error
it answers (`Event.Truthful`).
-/

namespace ChainTable

variable {K V : Type}

def Record.isResized : Record → Bool
  | .resized .. => true
  | _ => false

/-! ## Reading a log -/

/-- What a log has told so far: the number of buckets and the number of open cursors. -/
structure Gauge where
  capacity : Nat
  live : Nat
  deriving DecidableEq

namespace Gauge

/-- Reads one record, which must fit: a resize starts from the present capacity, doubles or
halves it, and a cursor is counted in or out. -/
def read (gauge : Gauge) : Record → Option Gauge
  | .resized before after _ =>
    if before = gauge.capacity ∧ (after = before * 2 ∨ after * 2 = before) then
      some { gauge with capacity := after }
    else none
  | .resizeFailed before _ _ => if before = gauge.capacity then some gauge else none
  | .shrinkPostponed cursors _ buckets =>
    if cursors = gauge.live ∧ buckets = gauge.capacity then some gauge else none
  | .cursorOpened live => if live = gauge.live + 1 then some { gauge with live } else none
  | .cursorClosed live => if live + 1 = gauge.live then some { gauge with live } else none

def replay (gauge : Gauge) (log : List Record) : Option Gauge := log.foldlM read gauge

@[simp] theorem replay_nil (gauge : Gauge) : gauge.replay [] = some gauge := rfl

@[simp] theorem replay_singleton (gauge : Gauge) (record : Record) :
    gauge.replay [record] = gauge.read record := by
  simp [replay]

theorem replay_append (gauge : Gauge) (log log' : List Record) :
    gauge.replay (log ++ log') = (gauge.replay log).bind fun next => next.replay log' :=
  List.foldlM_append

end Gauge

def Table.gauge (t : Table K V) : Gauge := ⟨t.capacity, t.liveCursors⟩

theorem Table.gauge_congr {t t' : Table K V} (capacity : t'.capacity = t.capacity)
    (live : t'.liveCursors = t.liveCursors) : t'.gauge = t.gauge := by
  rw [gauge, gauge, capacity, live]

/-! ## One call -/

/-- The call has asked for a directory of `n` buckets, as every resize does first, and the table
does not have them. -/
structure Event.Fails (keying : Keying K) (event : Event K V) (n : Nat) : Prop where
  asked : ⟨.buckets, n⟩ ∈ (event.reply keying).reservations
  missed : event.after.capacity ≠ n

/-- The records of a call are true and complete as to its resizes, and each reads as records of
its kind do. -/
structure Event.Truthful (keying : Keying K) (event : Event K V) : Prop where
  resized : (event.reply keying).log.filter Record.isResized =
    if event.Resizes then [.resized event.before.capacity event.after.capacity
      (event.before.carried event.after)] else []
  failed : ∀ n, event.Fails keying n → event.after.capacity = event.before.capacity ∧
    ∃ fault record, event.answer = .error fault ∧ (event.reply keying).log = [record] ∧
      record.level = .warn ∧ record.text = "failed to resize hash table from " ++
        Record.numeral event.before.capacity ++ " to " ++ Record.numeral n ++ " buckets: " ++
          fault.message
  warned : ∀ record ∈ (event.reply keying).log, record.level = .warn →
    ∃ n, event.Fails keying n
  worded : ∀ record ∈ (event.reply keying).log, record.Reads record.level record.text

namespace Table

variable {keying : Keying K} {t t' : Table K V} {reply : Reply (Answer K V)}
  {calls : List (Invocation K V)}

/-- What a call reports leads from the table before it to the table behind it. -/
theorem Reports.replay (reports : t.Reports reply t') :
    t.gauge.replay reply.log = some t'.gauge := by
  cases reports with
  | nothing log _ capacity live => rw [log, Gauge.replay_nil, gauge_congr capacity live]
  | resized log _ _ capacity live => simp [log, Gauge.read, gauge, capacity, live]
  | resizeFailed log _ _ _ same => simp [log, same, Gauge.read, gauge]
  | shrinkPostponed log _ capacity live => simp [log, Gauge.read, gauge, capacity, live]
  | opened log _ capacity live => simp [log, Gauge.read, gauge, capacity, live]
  | closed log _ capacity live => simp [log, Gauge.read, gauge, capacity, live]

theorem truthful_of_unasked {event : Event K V}
    (capacity : event.after.capacity = event.before.capacity)
    (unasked : ∀ n, ⟨.buckets, n⟩ ∉ (event.reply keying).reservations)
    (calm : ∀ record ∈ (event.reply keying).log,
      record.isResized = false ∧ record.level ≠ .warn) : event.Truthful keying := by
  have kept : ¬ event.Resizes := not_not_intro capacity
  refine ⟨?_, fun n fails => absurd fails.asked (unasked n), fun record member warns => ?_,
    fun record _ => record.reads⟩
  · rw [if_neg kept, List.filter_eq_nil_iff]
    intro record member
    simp [(calm record member).1]
  · exact absurd warns (calm record member).2

theorem Reports.truthful {event : Event K V}
    (answered : (event.reply keying).answer = event.answer)
    (reports : event.before.Reports (event.reply keying) event.after) : event.Truthful keying := by
  cases reports with
  | nothing log unasked capacity | shrinkPostponed log unasked capacity
  | opened log unasked capacity | closed log unasked capacity =>
    exact truthful_of_unasked capacity unasked (by simp [log, Record.isResized, Record.level])
  | resized log asked differs =>
    have resized : event.Resizes := differs
    refine ⟨by simp [log, Record.isResized, resized], fun n fails => ?_, ?_,
      fun record _ => record.reads⟩
    · exact absurd ((asked n).mp fails.asked).symm fails.missed
    · simp [log, Record.level]
  | @resizeFailed target r log answer asked differs same =>
    have kept : event.after.capacity = event.before.capacity := by rw [same]
    have unresized : ¬ event.Resizes := not_not_intro kept
    refine ⟨by simp [log, Record.isResized, unresized], fun n fails => ⟨kept, ?_⟩, ?_,
      fun record _ => record.reads⟩
    · have aimed : n = target := (asked n).mp fails.asked
      exact ⟨_, _, answered.symm.trans answer, log, rfl, by rw [aimed]; rfl⟩
    · intro record _ _
      exact ⟨target, (asked target).mpr rfl, by rw [kept]; exact Ne.symm differs⟩

/-! ## Runs -/

theorem Sound.reports_event (sound : t.Sound keying) (call : Invocation K V) :
    t.Reports ((t.event keying call).reply keying) (t.event keying call).after :=
  (effect_act sound call.allowance call.action).reports sound

theorem Sound.replay_history (sound : t.Sound keying) :
    t.gauge.replay ((t.history keying calls).flatMap fun event => (event.reply keying).log) =
      some (t.afterAll keying calls).gauge := by
  induction calls generalizing t with
  | nil => rfl
  | cons call rest ih =>
    rw [history, List.flatMap_cons, Gauge.replay_append, (sound.reports_event call).replay]
    exact ih (sound.act call.allowance call.action)

theorem Reachable.truthful_history (reachable : t.Reachable keying) :
    ∀ event ∈ t.history keying calls, event.Truthful keying := by
  intro event member
  obtain ⟨t', call, reachable', rfl⟩ := reachable.exists_of_mem_history member
  exact Reports.truthful rfl (reachable'.sound.reports_event call)

/-- The log of any calls on a new table, from the least capacity and no open cursor on, tells
the capacity and the number of open cursors they leave: the resizes in it form a chain of
doublings and halvings, and the records of cursors count them.  Every call that changes the
capacity has written the one record of that, with the number of entries in the table at that
moment.  Every call whose resize has failed, and no other, has written a warning, with the
error that it answers, and leaves the capacity as it was.  All records are at the level and in
the words of their kind. -/
theorem log_tells_resizes (keying : Keying K) (owner : Nat) (calls : List (Invocation K V)) :
    let events := (new owner).history keying calls
    let log := events.flatMap fun event => (event.reply keying).log
    Gauge.replay ⟨leastCapacity, 0⟩ log = some ((new owner).afterAll keying calls).gauge ∧
      ∀ event ∈ events, event.Truthful keying :=
  ⟨(sound_new keying owner).replay_history, (Reachable.new owner).truthful_history⟩

/-- A growth that fails, then one that is made although its call fails, a shrink put off until
the cursor is closed, and an insertion that the cursor forbids. -/
theorem log_tells_resizes_lastDigit :
    let calls : List (Invocation Nat Nat) :=
      [1, 2, 3, 4].map (fun n => ⟨none, .ask (.insert n n)⟩) ++
        [⟨some 1, .ask (.insert 5 5)⟩, ⟨some 6, .ask (.insert 5 5)⟩, ⟨none, .ask (.remove 4)⟩,
          ⟨none, .openCursor⟩, ⟨none, .ask (.insert 6 6)⟩, ⟨none, .ask (.remove 3)⟩,
          ⟨none, .closeCursor ⟨1, 1, 1⟩⟩, ⟨none, .ask (.extract 2)⟩]
    let events := (new 1).history Session.lastDigit calls
    let log := events.flatMap fun event => (event.reply Session.lastDigit).log
    log = [.resizeFailed 4 8 ⟨.counters, 8⟩, .resized 4 8 4, .cursorOpened 1,
        .shrinkPostponed 1 2 8, .cursorClosed 0, .resized 8 4 1] ∧
      log.map Record.text = ["failed to resize hash table from 4 to 8 buckets: " ++
          "cannot allocate rehash counters: 8 more element(s) requested",
        "resized hash table from 4 to 8 buckets (4 entries)", "cursor opened; 1 live",
        "shrink of hash table postponed: 1 cursor(s) open (2 entries, 8 buckets)",
        "cursor closed; 0 live", "resized hash table from 8 to 4 buckets (1 entries)"] ∧
      Gauge.replay ⟨4, 0⟩ log = some ⟨4, 0⟩ ∧
      ∀ event ∈ events, event.Truthful Session.lastDigit := by
  intro calls events log
  obtain ⟨told, truthful⟩ := log_tells_resizes (V := Nat) Session.lastDigit 1 calls
  have written : log = [.resizeFailed 4 8 ⟨.counters, 8⟩, .resized 4 8 4, .cursorOpened 1,
      .shrinkPostponed 1 2 8, .cursorClosed 0, .resized 8 4 1] := by decide +kernel
  exact ⟨written, by rw [written]; rfl, told.trans (by decide +kernel), truthful⟩

end Table

end ChainTable
