import Mathlib.Tactic

/-! The descriptor watcher of `watcher.c` over three libev watchers, of which
only whether they are started on the event loop is kept. -/

namespace KongjaExpress.EventLoop

/-- The masks `WATCHER_RX_WATCH`, `WATCHER_TX_WATCH` and `WATCHER_ER_WATCH`. -/
inductive WatchTarget
  | rx | tx | er
  deriving DecidableEq, Repr

def WatchTarget.mask : WatchTarget → UInt8
  | .rx => 0x01
  | .tx => 0x02
  | .er => 0x04

def watcherStarted : UInt8 := 0x08

structure Watcher where
  fd : Int
  flags : UInt8
  rxIo : Bool
  txIo : Bool
  erIo : Bool
  deriving DecidableEq, Repr

/-- `ev_io_start` or `ev_io_stop` on the watcher `__get_ev_io` selects. -/
def setEvIo (watcher : Watcher) (active : Bool) : WatchTarget → Watcher
  | .rx => { watcher with rxIo := active }
  | .tx => { watcher with txIo := active }
  | .er => { watcher with erIo := active }

def evIo (watcher : Watcher) : WatchTarget → Bool
  | .rx => watcher.rxIo
  | .tx => watcher.txIo
  | .er => watcher.erIo

def isWatching (watcher : Watcher) (target : WatchTarget) : Bool :=
  watcher.flags &&& target.mask != 0

def isStarted (watcher : Watcher) : Bool := watcher.flags &&& watcherStarted != 0

/-- `__watcher_start`. -/
def watcherStartTarget (watcher : Watcher) (target : WatchTarget) : Watcher :=
  if isWatching watcher target then watcher
  else
    let watcher := { watcher with flags := watcher.flags ||| target.mask }
    if isStarted watcher then setEvIo watcher true target else watcher

/-- `__watcher_stop`. -/
def watcherStopTarget (watcher : Watcher) (target : WatchTarget) : Watcher :=
  if !isWatching watcher target then watcher
  else
    let watcher := { watcher with flags := watcher.flags &&& ~~~target.mask }
    if isStarted watcher then setEvIo watcher false target else watcher

def watcherInitWithFd (fd : Int) : Watcher := ⟨fd, 0, false, false, false⟩

def startWatched (watcher : Watcher) (target : WatchTarget) : Watcher :=
  if isWatching watcher target then setEvIo watcher true target else watcher

def stopWatched (watcher : Watcher) (target : WatchTarget) : Watcher :=
  if isWatching watcher target then setEvIo watcher false target else watcher

def watcherStart (watcher : Watcher) : Watcher :=
  if isStarted watcher then watcher
  else
    let watcher := { watcher with flags := watcher.flags ||| watcherStarted }
    startWatched (startWatched (startWatched watcher .rx) .tx) .er

def watcherStop (watcher : Watcher) : Watcher :=
  if !isStarted watcher then watcher
  else
    let watcher := { watcher with flags := watcher.flags &&& ~~~watcherStarted }
    stopWatched (stopWatched (stopWatched watcher .rx) .tx) .er

def watcherWatchRx (watcher : Watcher) : Watcher := watcherStartTarget watcher .rx
def watcherWatchTx (watcher : Watcher) : Watcher := watcherStartTarget watcher .tx
def watcherNoWatchTx (watcher : Watcher) : Watcher := watcherStopTarget watcher .tx
def watcherWatchErr (watcher : Watcher) : Watcher := watcherStartTarget watcher .er
def watcherNoWatchRx (watcher : Watcher) : Watcher := watcherStopTarget watcher .rx
def watcherNoWatchErr (watcher : Watcher) : Watcher := watcherStopTarget watcher .er

def flagMasks : List UInt8 := [0x01, 0x02, 0x04, watcherStarted]

private theorem mask_bit {mask : UInt8} (known : mask ∈ flagMasks) :
    ∃ k < 8, mask.toBitVec = BitVec.twoPow 8 k := by
  simp only [flagMasks, List.mem_cons, List.not_mem_nil, or_false] at known
  rcases known with rfl | rfl | rfl | rfl
  · exact ⟨0, by decide, by decide⟩
  · exact ⟨1, by decide, by decide⟩
  · exact ⟨2, by decide, by decide⟩
  · exact ⟨3, by decide, by decide⟩

private theorem test_bit (flags : UInt8) {mask : UInt8} {k : Nat} (inside : k < 8)
    (bit : mask.toBitVec = BitVec.twoPow 8 k) :
    (flags &&& mask != 0) = flags.toBitVec.getLsbD k := by
  have tested : flags &&& mask = 0 ↔ flags.toBitVec.getLsbD k = false := by
    rw [← UInt8.toBitVec_inj, UInt8.toBitVec_and, bit, BitVec.and_twoPow]
    cases set : flags.toBitVec.getLsbD k with
    | false => simp
    | true =>
        refine iff_of_false (fun zero => ?_) (by decide)
        have lost := congrArg (fun word => word.getLsbD k) zero
        simp [inside] at lost
  rw [bne, Bool.eq_iff_iff, Bool.not_eq_true', beq_eq_false_iff_ne, Ne, tested, Bool.not_eq_false]

private theorem bit_beq {mask other : UInt8} {k j : Nat} (inside : k < 8)
    (bit : mask.toBitVec = BitVec.twoPow 8 k) (otherBit : other.toBitVec = BitVec.twoPow 8 j) :
    (mask == other) = decide (k = j) := by
  rw [Bool.eq_iff_iff, beq_iff_eq, decide_eq_true_iff, ← UInt8.toBitVec_inj, bit, otherBit]
  constructor
  · intro same
    have read := congrArg (fun word => word.getLsbD k) same
    simpa [inside, eq_comm] using read
  · rintro rfl
    rfl

/-- The value of every flag after the bits of `mask` were set. -/
private theorem or_mask (flags mask other : UInt8) (known : mask ∈ flagMasks)
    (otherKnown : other ∈ flagMasks) :
    ((flags ||| mask) &&& other != 0) = (mask == other || flags &&& other != 0) := by
  rcases mask_bit known with ⟨k, inside, bit⟩
  rcases mask_bit otherKnown with ⟨j, otherInside, otherBit⟩
  rw [test_bit _ otherInside otherBit, test_bit _ otherInside otherBit,
    bit_beq inside bit otherBit, UInt8.toBitVec_or, BitVec.getLsbD_or, bit,
    BitVec.getLsbD_twoPow, Bool.or_comm]
  simp [inside]

/-- The value of every flag after the bits of `mask` were cleared. -/
private theorem andNot_mask (flags mask other : UInt8) (known : mask ∈ flagMasks)
    (otherKnown : other ∈ flagMasks) :
    ((flags &&& ~~~mask) &&& other != 0) = (mask != other && flags &&& other != 0) := by
  rcases mask_bit known with ⟨k, inside, bit⟩
  rcases mask_bit otherKnown with ⟨j, otherInside, otherBit⟩
  rw [test_bit _ otherInside otherBit, test_bit _ otherInside otherBit, bne,
    bit_beq inside bit otherBit, UInt8.toBitVec_and, UInt8.toBitVec_not, BitVec.getLsbD_and,
    BitVec.getLsbD_not, bit, BitVec.getLsbD_twoPow, Bool.and_comm]
  simp [inside, otherInside]

private theorem mask_known (target : WatchTarget) : target.mask ∈ flagMasks := by
  cases target <;> decide

private theorem mask_beq (target other : WatchTarget) :
    (target.mask == other.mask) = decide (target = other) := by
  cases target <;> cases other <;> decide

private theorem started_ne_mask (target : WatchTarget) :
    (target.mask == watcherStarted) = false := by
  cases target <;> decide

@[simp] theorem setEvIo_flags (watcher : Watcher) (active : Bool) (target : WatchTarget) :
    (setEvIo watcher active target).flags = watcher.flags := by
  cases target <;> rfl

@[simp] theorem isWatching_setEvIo (watcher : Watcher) (active : Bool)
    (target other : WatchTarget) :
    isWatching (setEvIo watcher active target) other = isWatching watcher other := by
  simp [isWatching]

@[simp] theorem isStarted_setEvIo (watcher : Watcher) (active : Bool) (target : WatchTarget) :
    isStarted (setEvIo watcher active target) = isStarted watcher := by
  simp [isStarted]

@[simp] theorem fd_setEvIo (watcher : Watcher) (active : Bool) (target : WatchTarget) :
    (setEvIo watcher active target).fd = watcher.fd := by
  cases target <;> rfl

theorem evIo_setEvIo (watcher : Watcher) (active : Bool) (target other : WatchTarget) :
    evIo (setEvIo watcher active target) other =
      if target = other then active else evIo watcher other := by
  cases target <;> cases other <;> rfl

@[simp] theorem fd_startTarget (watcher : Watcher) (target : WatchTarget) :
    (watcherStartTarget watcher target).fd = watcher.fd := by
  simp only [watcherStartTarget]
  split_ifs <;> simp

@[simp] theorem fd_stopTarget (watcher : Watcher) (target : WatchTarget) :
    (watcherStopTarget watcher target).fd = watcher.fd := by
  simp only [watcherStopTarget]
  split_ifs <;> simp

@[simp] theorem fd_watcherStart (watcher : Watcher) : (watcherStart watcher).fd = watcher.fd := by
  have watched : ∀ (watcher : Watcher) (target : WatchTarget),
      (startWatched watcher target).fd = watcher.fd := by
    intro watcher target
    rw [startWatched]
    split_ifs <;> simp
  rw [watcherStart]
  split_ifs <;> simp [watched]

theorem watcherStartTarget_flags (watcher : Watcher) (target : WatchTarget)
    (idle : isWatching watcher target = false) :
    (watcherStartTarget watcher target).flags = watcher.flags ||| target.mask := by
  simp only [watcherStartTarget, idle, Bool.false_eq_true, if_false]
  split <;> simp

theorem watcherStopTarget_flags (watcher : Watcher) (target : WatchTarget)
    (watched : isWatching watcher target = true) :
    (watcherStopTarget watcher target).flags = watcher.flags &&& ~~~target.mask := by
  simp only [watcherStopTarget, watched, Bool.not_true, Bool.false_eq_true, if_false]
  split <;> simp

@[simp] theorem isWatching_startTarget (watcher : Watcher) (target other : WatchTarget) :
    isWatching (watcherStartTarget watcher target) other =
      (decide (target = other) || isWatching watcher other) := by
  cases idle : isWatching watcher target with
  | true =>
      rw [watcherStartTarget, if_pos idle]
      by_cases same : target = other
      · subst same
        simp [idle]
      · simp [same]
  | false =>
      rw [isWatching, watcherStartTarget_flags _ _ idle,
        or_mask _ _ _ (mask_known target) (mask_known other), mask_beq]
      rfl

@[simp] theorem isStarted_startTarget (watcher : Watcher) (target : WatchTarget) :
    isStarted (watcherStartTarget watcher target) = isStarted watcher := by
  cases idle : isWatching watcher target with
  | true => rw [watcherStartTarget, if_pos idle]
  | false =>
      rw [isStarted, watcherStartTarget_flags _ _ idle,
        or_mask _ _ _ (mask_known target) (by decide), started_ne_mask]
      rfl

@[simp] theorem isWatching_stopTarget (watcher : Watcher) (target other : WatchTarget) :
    isWatching (watcherStopTarget watcher target) other =
      (decide (target ≠ other) && isWatching watcher other) := by
  cases watched : isWatching watcher target with
  | true =>
      rw [isWatching, watcherStopTarget_flags _ _ watched,
        andNot_mask _ _ _ (mask_known target) (mask_known other), bne, mask_beq]
      simp [isWatching]
  | false =>
      rw [watcherStopTarget, if_pos (by simp [watched])]
      by_cases same : target = other
      · subst same
        simp [watched]
      · simp [same]

@[simp] theorem isStarted_stopTarget (watcher : Watcher) (target : WatchTarget) :
    isStarted (watcherStopTarget watcher target) = isStarted watcher := by
  cases watched : isWatching watcher target with
  | true =>
      rw [isStarted, watcherStopTarget_flags _ _ watched,
        andNot_mask _ _ _ (mask_known target) (by decide), bne, started_ne_mask]
      simp [isStarted]
  | false => rw [watcherStopTarget, if_pos (by simp [watched])]

/-- A started watcher runs exactly the libev watchers its flags name, and one
that is not started runs none. -/
def LoopMatchesFlags (watcher : Watcher) : Prop :=
  ∀ target, evIo watcher target = (isStarted watcher && isWatching watcher target)

/-- New flags that differ for one target only, with that libev watcher following. -/
private theorem loopMatchesFlags_update (watcher : Watcher) (flags : UInt8) (active : Bool)
    (target : WatchTarget) (agrees : LoopMatchesFlags watcher)
    (started : isStarted { watcher with flags := flags } = isStarted watcher)
    (watching : ∀ other, isWatching { watcher with flags := flags } other =
      if target = other then active else isWatching watcher other) :
    LoopMatchesFlags (if isStarted { watcher with flags := flags }
      then setEvIo { watcher with flags := flags } active target
      else { watcher with flags := flags }) := by
  intro other
  have former : evIo { watcher with flags := flags } other =
      (isStarted watcher && isWatching watcher other) := agrees other
  rw [started]
  cases running : isStarted watcher with
  | true =>
      rw [if_pos rfl, evIo_setEvIo, isStarted_setEvIo, isWatching_setEvIo, started, running,
        watching, Bool.true_and]
      split
      · rfl
      · rw [former, running, Bool.true_and]
  | false =>
      rw [if_neg Bool.false_ne_true, former, started, running, Bool.false_and, Bool.false_and]

theorem loopMatchesFlags_startTarget (watcher : Watcher) (target : WatchTarget)
    (agrees : LoopMatchesFlags watcher) :
    LoopMatchesFlags (watcherStartTarget watcher target) := by
  cases idle : isWatching watcher target with
  | true =>
      rw [watcherStartTarget, if_pos idle]
      exact agrees
  | false =>
      rw [watcherStartTarget, if_neg (by simp [idle])]
      apply loopMatchesFlags_update watcher _ true target agrees
      · rw [isStarted, or_mask _ _ _ (mask_known target) (by decide), started_ne_mask]
        rfl
      · intro other
        rw [isWatching, or_mask _ _ _ (mask_known target) (mask_known other), mask_beq]
        by_cases same : target = other <;> simp [same, isWatching]

theorem loopMatchesFlags_stopTarget (watcher : Watcher) (target : WatchTarget)
    (agrees : LoopMatchesFlags watcher) :
    LoopMatchesFlags (watcherStopTarget watcher target) := by
  cases watched : isWatching watcher target with
  | false =>
      rw [watcherStopTarget, if_pos (by simp [watched])]
      exact agrees
  | true =>
      rw [watcherStopTarget, if_neg (by simp [watched])]
      apply loopMatchesFlags_update watcher _ false target agrees
      · rw [isStarted, andNot_mask _ _ _ (mask_known target) (by decide), bne, started_ne_mask]
        simp [isStarted]
      · intro other
        rw [isWatching, andNot_mask _ _ _ (mask_known target) (mask_known other), bne, mask_beq]
        by_cases same : target = other <;> simp [same, isWatching]

@[simp] theorem isWatching_startWatched (watcher : Watcher) (target other : WatchTarget) :
    isWatching (startWatched watcher target) other = isWatching watcher other := by
  unfold startWatched
  split <;> simp

@[simp] theorem isStarted_startWatched (watcher : Watcher) (target : WatchTarget) :
    isStarted (startWatched watcher target) = isStarted watcher := by
  unfold startWatched
  split <;> simp

theorem evIo_startWatched (watcher : Watcher) (target other : WatchTarget) :
    evIo (startWatched watcher target) other =
      (decide (target = other) && isWatching watcher target || evIo watcher other) := by
  unfold startWatched
  split
  · rename_i watched
    rw [evIo_setEvIo]
    by_cases same : target = other
    · subst same
      simp [watched]
    · simp [same]
  · rename_i idle
    simp [idle]

private theorem or_started (watcher : Watcher) :
    isStarted { watcher with flags := watcher.flags ||| watcherStarted } = true ∧
      ∀ target, isWatching { watcher with flags := watcher.flags ||| watcherStarted } target =
        isWatching watcher target := by
  refine ⟨?_, fun target => ?_⟩
  · rw [isStarted, or_mask _ _ _ (by decide) (by decide), beq_self_eq_true, Bool.true_or]
  · have distinct : (watcherStarted == target.mask) = false := by
      cases target <;> decide
    rw [isWatching, or_mask _ _ _ (by decide) (mask_known target), distinct, Bool.false_or]
    rfl

@[simp] theorem isStarted_watcherStart (watcher : Watcher) :
    isStarted (watcherStart watcher) = true := by
  unfold watcherStart
  split
  · rename_i started
    exact started
  · simp [or_started]

@[simp] theorem isWatching_watcherStart (watcher : Watcher) (target : WatchTarget) :
    isWatching (watcherStart watcher) target = isWatching watcher target := by
  unfold watcherStart
  split
  · rfl
  · simp [or_started]

theorem loopMatchesFlags_watcherStart (watcher : Watcher) (agrees : LoopMatchesFlags watcher) :
    LoopMatchesFlags (watcherStart watcher) := by
  intro target
  rw [isStarted_watcherStart, isWatching_watcherStart, Bool.true_and]
  cases started : isStarted watcher with
  | true =>
      rw [watcherStart, if_pos started, agrees target, started, Bool.true_and]
  | false =>
      have off : ∀ flags other, evIo { watcher with flags := flags } other = false := by
        intro flags other
        have former := agrees other
        rw [started, Bool.false_and] at former
        exact former
      rw [watcherStart, if_neg (by simp [started])]
      simp only [evIo_startWatched, isWatching_startWatched, (or_started watcher).2, off,
        Bool.or_false]
      cases target <;> simp

@[simp] theorem isStarted_init (fd : Int) : isStarted (watcherInitWithFd fd) = false := by
  simp [isStarted, watcherInitWithFd]

@[simp] theorem isWatching_init (fd : Int) (target : WatchTarget) :
    isWatching (watcherInitWithFd fd) target = false := by
  simp [isWatching, watcherInitWithFd]

theorem loopMatchesFlags_init (fd : Int) : LoopMatchesFlags (watcherInitWithFd fd) := by
  intro target
  rw [isStarted_init, Bool.false_and]
  cases target <;> rfl

@[simp] theorem isWatching_stopWatched (watcher : Watcher) (target other : WatchTarget) :
    isWatching (stopWatched watcher target) other = isWatching watcher other := by
  rw [stopWatched]
  split_ifs <;> simp

@[simp] theorem isStarted_stopWatched (watcher : Watcher) (target : WatchTarget) :
    isStarted (stopWatched watcher target) = isStarted watcher := by
  rw [stopWatched]
  split_ifs <;> simp

@[simp] theorem fd_stopWatched (watcher : Watcher) (target : WatchTarget) :
    (stopWatched watcher target).fd = watcher.fd := by
  rw [stopWatched]
  split_ifs <;> simp

theorem evIo_stopWatched (watcher : Watcher) (target other : WatchTarget) :
    evIo (stopWatched watcher target) other =
      (!(decide (target = other) && isWatching watcher target) && evIo watcher other) := by
  rw [stopWatched]
  cases watched : isWatching watcher target with
  | true =>
      rw [if_pos rfl, evIo_setEvIo]
      by_cases same : target = other <;> simp [same]
  | false => simp

private theorem andNot_started (watcher : Watcher) :
    isStarted { watcher with flags := watcher.flags &&& ~~~watcherStarted } = false ∧
      ∀ target, isWatching { watcher with flags := watcher.flags &&& ~~~watcherStarted } target =
        isWatching watcher target := by
  refine ⟨?_, fun target => ?_⟩
  · rw [isStarted, andNot_mask _ _ _ (by decide) (by decide), bne_self_eq_false, Bool.false_and]
  · have distinct : (watcherStarted != target.mask) = true := by
      cases target <;> decide
    rw [isWatching, andNot_mask _ _ _ (by decide) (mask_known target), distinct, Bool.true_and]
    rfl

@[simp] theorem isStarted_watcherStop (watcher : Watcher) :
    isStarted (watcherStop watcher) = false := by
  rw [watcherStop]
  split_ifs with idle
  · simpa using idle
  · simp [andNot_started]

@[simp] theorem isWatching_watcherStop (watcher : Watcher) (target : WatchTarget) :
    isWatching (watcherStop watcher) target = isWatching watcher target := by
  rw [watcherStop]
  split_ifs
  · rfl
  · simp [andNot_started]

@[simp] theorem fd_watcherStop (watcher : Watcher) : (watcherStop watcher).fd = watcher.fd := by
  rw [watcherStop]
  split_ifs <;> simp

theorem loopMatchesFlags_watcherStop (watcher : Watcher) (agrees : LoopMatchesFlags watcher) :
    LoopMatchesFlags (watcherStop watcher) := by
  intro target
  rw [isStarted_watcherStop, Bool.false_and]
  cases started : isStarted watcher with
  | false =>
      rw [watcherStop, if_pos (by simp [started]), agrees target, started, Bool.false_and]
  | true =>
      have same : ∀ flags other, evIo { watcher with flags := flags } other =
          isWatching watcher other := by
        intro flags other
        have former := agrees other
        rw [started, Bool.true_and] at former
        exact former
      rw [watcherStop, if_neg (by simp [started])]
      simp only [evIo_stopWatched, isWatching_stopWatched, (andNot_started watcher).2, same]
      cases target <;> simp

/-! A watcher under any calls. -/

/-- The calls of `watcher.h`. -/
inductive WatcherOp
  | start | stop
  | watch (target : WatchTarget)
  | noWatch (target : WatchTarget)
  deriving DecidableEq, Repr

def watcherOp (watcher : Watcher) : WatcherOp → Watcher
  | .start => watcherStart watcher
  | .stop => watcherStop watcher
  | .watch .rx => watcherWatchRx watcher
  | .watch .tx => watcherWatchTx watcher
  | .watch .er => watcherWatchErr watcher
  | .noWatch .rx => watcherNoWatchRx watcher
  | .noWatch .tx => watcherNoWatchTx watcher
  | .noWatch .er => watcherNoWatchErr watcher

def WatcherOp.starting : WatcherOp → Option Bool
  | .start => some true
  | .stop => some false
  | _ => none

def WatcherOp.watching (target : WatchTarget) : WatcherOp → Option Bool
  | .watch other => if other = target then some true else none
  | .noWatch other => if other = target then some false else none
  | _ => none

theorem watcherOp_watch (watcher : Watcher) (target : WatchTarget) :
    watcherOp watcher (.watch target) = watcherStartTarget watcher target := by
  cases target <;> rfl

theorem watcherOp_noWatch (watcher : Watcher) (target : WatchTarget) :
    watcherOp watcher (.noWatch target) = watcherStopTarget watcher target := by
  cases target <;> rfl

theorem isStarted_watcherOp (watcher : Watcher) (op : WatcherOp) :
    isStarted (watcherOp watcher op) = op.starting.getD (isStarted watcher) := by
  cases op with
  | start => exact isStarted_watcherStart watcher
  | stop => exact isStarted_watcherStop watcher
  | watch target =>
      rw [watcherOp_watch]
      exact isStarted_startTarget watcher target
  | noWatch target =>
      rw [watcherOp_noWatch]
      exact isStarted_stopTarget watcher target

theorem isWatching_watcherOp (watcher : Watcher) (op : WatcherOp) (target : WatchTarget) :
    isWatching (watcherOp watcher op) target =
      (op.watching target).getD (isWatching watcher target) := by
  cases op with
  | start => exact isWatching_watcherStart watcher target
  | stop => exact isWatching_watcherStop watcher target
  | watch other =>
      rw [watcherOp_watch, isWatching_startTarget, WatcherOp.watching]
      by_cases same : other = target <;> simp [same]
  | noWatch other =>
      rw [watcherOp_noWatch, isWatching_stopTarget, WatcherOp.watching]
      by_cases same : other = target <;> simp [same]

theorem fd_watcherOp (watcher : Watcher) (op : WatcherOp) :
    (watcherOp watcher op).fd = watcher.fd := by
  cases op with
  | start => exact fd_watcherStart watcher
  | stop => exact fd_watcherStop watcher
  | watch target =>
      rw [watcherOp_watch]
      exact fd_startTarget watcher target
  | noWatch target =>
      rw [watcherOp_noWatch]
      exact fd_stopTarget watcher target

theorem loopMatchesFlags_watcherOp {watcher : Watcher} (agrees : LoopMatchesFlags watcher)
    (op : WatcherOp) : LoopMatchesFlags (watcherOp watcher op) := by
  cases op with
  | start => exact loopMatchesFlags_watcherStart watcher agrees
  | stop => exact loopMatchesFlags_watcherStop watcher agrees
  | watch target =>
      rw [watcherOp_watch]
      exact loopMatchesFlags_startTarget watcher target agrees
  | noWatch target =>
      rw [watcherOp_noWatch]
      exact loopMatchesFlags_stopTarget watcher target agrees

theorem getLastD_filterMap_snoc {α β : Type} (about : α → Option β) (default : β) (ops : List α)
    (op : α) :
    ((ops ++ [op]).filterMap about).getLastD default =
      (about op).getD ((ops.filterMap about).getLastD default) := by
  rw [List.filterMap_append]
  cases word : about op with
  | none => simp [word]
  | some value => simp [word, List.getLastD_eq_getLast?]

/-- After any calls the event loop watches a target of the descriptor if and only if the last
`watcher_start` or `watcher_stop` was a start and the last word on the target was to watch it. -/
theorem watcher_follows (fd : Int) (ops : List WatcherOp) :
    (ops.foldl watcherOp (watcherInitWithFd fd)).fd = fd ∧
      ∀ target, evIo (ops.foldl watcherOp (watcherInitWithFd fd)) target =
        ((ops.filterMap WatcherOp.starting).getLastD false &&
          (ops.filterMap (WatcherOp.watching target)).getLastD false) := by
  have followed : LoopMatchesFlags (ops.foldl watcherOp (watcherInitWithFd fd)) ∧
      (ops.foldl watcherOp (watcherInitWithFd fd)).fd = fd ∧
      isStarted (ops.foldl watcherOp (watcherInitWithFd fd)) =
        (ops.filterMap WatcherOp.starting).getLastD false ∧
      ∀ target, isWatching (ops.foldl watcherOp (watcherInitWithFd fd)) target =
        (ops.filterMap (WatcherOp.watching target)).getLastD false := by
    induction ops using List.reverseRecOn with
    | nil =>
        refine ⟨loopMatchesFlags_init fd, rfl, isStarted_init fd, fun target => ?_⟩
        simp
    | append_singleton ops op ih =>
        rcases ih with ⟨agrees, same, started, watching⟩
        rw [List.foldl_append, List.foldl_cons, List.foldl_nil]
        refine ⟨loopMatchesFlags_watcherOp agrees op, ?_, ?_, fun target => ?_⟩
        · rw [fd_watcherOp, same]
        · rw [isStarted_watcherOp, getLastD_filterMap_snoc, started]
        · rw [isWatching_watcherOp, getLastD_filterMap_snoc, watching]
  rcases followed with ⟨agrees, same, started, watching⟩
  refine ⟨same, fun target => ?_⟩
  rw [agrees target, started, watching]

end KongjaExpress.EventLoop
