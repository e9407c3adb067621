import KongjaExpress.Protocols.TelnetReader

/-! Which telnet streams the reader takes apart as they were put together. A
subnegotiation is given up at its first doubled escape code and behind its
thirty-second byte; the rest of it is then delivered as data. -/

namespace KongjaExpress.Protocols

inductive TelnetItem
  | data (bytes : List UInt8)
  | command (code : UInt8) (plain : code < telnetSb)
  | negotiation (verb opt : UInt8) (known : verb ∈ [telnetDo, telnetDont, telnetWill, telnetWont])
  | subnegotiation (payload : List UInt8)

def TelnetItem.encode : TelnetItem → List UInt8
  | .data bytes => escape bytes
  | .command code _ => [telnetIac, code]
  | .negotiation verb opt _ => [telnetIac, verb, opt]
  | .subnegotiation payload => [telnetIac, telnetSb] ++ escape payload ++ [telnetIac, telnetSe]

def TelnetItem.dataBytes : TelnetItem → List UInt8
  | .data bytes => bytes
  | _ => []

def TelnetItem.commands : TelnetItem → Nat
  | .data _ => 0
  | .command _ _ => 0
  | .negotiation _ _ _ => 1
  | .subnegotiation _ => 1

inductive TelnetEvent
  | databack (data : UInt8)
  | cmdback (command : UInt8)
  deriving DecidableEq, Repr

def telnetLog : TelnetCallbacks (List TelnetEvent) where
  databack data log := log ++ [.databack data]
  cmdback tr log := log ++ [.cmdback tr.command]

def TelnetEvent.data? : TelnetEvent → Option UInt8
  | .databack data => some data
  | .cmdback _ => none

def received (log : List TelnetEvent) : List UInt8 := log.filterMap TelnetEvent.data?

def commandCount (log : List TelnetEvent) : Nat := log.countP fun event => event.data?.isNone

/-- What is left of a payload when the reader gives it up, with `room` bytes of
its buffer free; `none` when it takes the whole payload. -/
def leftover : Nat → List UInt8 → Option (List UInt8)
  | _, [] => none
  | room, byte :: payload =>
      if byte = telnetIac ∨ room = 0 then some payload else leftover (room - 1) payload

/-- The calls for a payload that arrives while `room` bytes of the buffer are free. -/
def payloadEvents (room : Nat) (payload : List UInt8) : List TelnetEvent :=
  match leftover room payload with
  | none => [.cmdback telnetSb]
  | some rest => rest.map .databack

def TelnetItem.events : TelnetItem → List TelnetEvent
  | .data bytes => bytes.map .databack
  | .command _ _ => []
  | .negotiation verb _ _ => [.cmdback verb]
  | .subnegotiation payload => payloadEvents 32 payload

/-- A subnegotiation that fits the buffer and contains no escape code. -/
def TelnetItem.Plain : TelnetItem → Prop
  | .subnegotiation payload => payload.length ≤ 32 ∧ telnetIac ∉ payload
  | _ => True

theorem leftover_eq_none_iff (room : Nat) (payload : List UInt8) :
    leftover room payload = none ↔ payload.length ≤ room ∧ telnetIac ∉ payload := by
  induction payload generalizing room with
  | nil => simp [leftover]
  | cons byte payload ih =>
      by_cases escaped : byte = telnetIac
      · subst escaped
        simp [leftover]
      · cases room with
        | zero => simp [leftover, escaped]
        | succ room => simp [leftover, escaped, ih, Ne.symm escaped]

theorem log_data (bytes : List UInt8) (log : List TelnetEvent) :
    bytes.foldl (fun log byte => telnetLog.databack byte log) log = log ++ bytes.map .databack := by
  induction bytes generalizing log with
  | nil => simp
  | cons byte bytes ih =>
      rw [List.foldl_cons, ih, List.map_cons, telnetLog, List.append_assoc, List.singleton_append]

/-- The reader took `bytes` in, made the calls `events` and is between two commands again. -/
def Takes (tr : TelnetReader) (bytes : List UInt8) (events : List TelnetEvent) : Prop :=
  ∀ log, ∃ next, next.state = .start ∧
    telnetReaderFeed telnetLog (tr, log) bytes = (next, log ++ events)

theorem takes_data {tr : TelnetReader} (idle : tr.state = .start) (bytes : List UInt8) :
    Takes tr (escape bytes) (bytes.map .databack) := by
  intro log
  exact ⟨tr, idle, by rw [feed_escape telnetLog idle, log_data]⟩

theorem takes_append {tr : TelnetReader} {front back : List UInt8}
    {early late : List TelnetEvent} (first : Takes tr front early)
    (second : ∀ next : TelnetReader, next.state = .start → Takes next back late) :
    Takes tr (front ++ back) (early ++ late) := by
  intro log
  rcases first log with ⟨middle, idle, fed⟩
  rcases second middle idle (log ++ early) with ⟨last, idle', fed'⟩
  exact ⟨last, idle', by rw [telnetReaderFeed_append, fed, fed', List.append_assoc]⟩

theorem takes_command {tr : TelnetReader} (idle : tr.state = .start) {code : UInt8}
    (plain : code < telnetSb) : Takes tr [telnetIac, code] [] := by
  have other : ∀ known : UInt8, telnetSb ≤ known → code ≠ known := by
    rintro known above rfl
    exact absurd plain (UInt8.not_lt.mpr above)
  intro log
  refine ⟨{ tr with state := .start, command := code }, rfl, ?_⟩
  simp [telnetReaderStateMachine, idle, telnetReaderHandleCommand, other telnetIac (by decide),
    other telnetDo (by decide), other telnetDont (by decide), other telnetWill (by decide),
    other telnetWont (by decide), other telnetSb (by decide)]

theorem takes_negotiation {tr : TelnetReader} (idle : tr.state = .start) {verb : UInt8}
    (known : verb ∈ [telnetDo, telnetDont, telnetWill, telnetWont]) (opt : UInt8) :
    Takes tr [telnetIac, verb, opt] [.cmdback verb] := by
  have code : verb = telnetDo ∨ verb = telnetDont ∨ verb = telnetWill ∨ verb = telnetWont := by
    simpa using known
  have other : verb ≠ telnetIac := by
    rcases code with rfl | rfl | rfl | rfl <;> decide
  intro log
  refine ⟨{ tr with state := .start, command := verb, opt := opt }, rfl, ?_⟩
  simp [telnetReaderStateMachine, idle, telnetReaderHandleCommand, other, code, telnetLog]

/-- What follows a payload that was given up: its rest is data, and its end an
unknown command. -/
theorem takes_rest {tr : TelnetReader} (idle : tr.state = .start) (rest : List UInt8) :
    Takes tr (escape rest ++ [telnetIac, telnetSe]) (rest.map .databack) := by
  have both := takes_append (takes_data idle rest) fun next idle' =>
    takes_command idle' (show telnetSe < telnetSb by decide)
  rwa [List.append_nil] at both

theorem takes_step {tr next : TelnetReader} {byte : UInt8} {bytes : List UInt8}
    {events : List TelnetEvent}
    (moved : ∀ log : List TelnetEvent, telnetReaderStateMachine telnetLog (tr, log) byte = (next, log))
    (rest : Takes next bytes events) : Takes tr (byte :: bytes) events := by
  intro log
  rcases rest log with ⟨last, idle, fed⟩
  exact ⟨last, idle, by rw [telnetReaderFeed_cons, moved, fed]⟩

theorem takes_payload {tr : TelnetReader} {room : Nat} (inside : tr.state = .rxSb)
    (begun : tr.command = telnetSb) (free : tr.bufNdx.toNat + room = 32) (payload : List UInt8) :
    Takes tr (escape payload ++ [telnetIac, telnetSe]) (payloadEvents room payload) := by
  induction payload generalizing tr room with
  | nil =>
      intro log
      refine ⟨{ tr with state := .start }, rfl, ?_⟩
      simp [telnetReaderStateMachine, telnetReaderHandleSubcommand, inside, begun, payloadEvents,
        leftover, telnetLog]
  | cons byte payload ih =>
      by_cases escaped : byte = telnetIac
      · -- the doubled code is taken for the start of the end
        subst escaped
        rw [escape_cons_iac, payloadEvents, leftover, if_pos (Or.inl rfl)]
        apply @takes_step _ { tr with state := .waitForSe }
        · intro log
          simp [telnetReaderStateMachine, telnetReaderHandleSubcommand, inside]
        · apply @takes_step _ { tr with state := .start }
          · intro log
            simp [telnetReaderStateMachine, show telnetIac ≠ telnetSe by decide]
          · exact takes_rest rfl payload
      · rw [escape_cons_plain escaped, payloadEvents]
        cases room with
        | zero =>
            have full : ¬ tr.bufNdx.toNat < 32 := by omega
            rw [leftover, if_pos (Or.inr rfl)]
            apply @takes_step _ { tr with state := .start }
            · intro log
              simp [telnetReaderStateMachine, telnetReaderHandleSubcommand, inside, escaped, full]
            · exact takes_rest rfl payload
        | succ room =>
            have fits : tr.bufNdx.toNat < 32 := by omega
            have next : (tr.bufNdx + 1).toNat = tr.bufNdx.toNat + 1 := by
              simp only [UInt8.toNat_add, UInt8.reduceToNat]
              omega
            rw [leftover, if_neg (by simp [escaped]), Nat.add_sub_cancel]
            apply @takes_step _ { tr with
              buffer := tr.buffer.set tr.bufNdx.toNat byte fits, bufNdx := tr.bufNdx + 1 }
            · intro log
              simp [telnetReaderStateMachine, telnetReaderHandleSubcommand, inside, escaped, fits]
            · exact ih inside begun (by simp only [next]; omega)

theorem takes_item {tr : TelnetReader} (idle : tr.state = .start) (item : TelnetItem) :
    Takes tr item.encode item.events := by
  cases item with
  | data bytes => exact takes_data idle bytes
  | command code plain => exact takes_command idle plain
  | negotiation verb opt known => exact takes_negotiation idle known opt
  | subnegotiation payload =>
      apply @takes_step _ { tr with state := .rxIac }
      · intro log
        simp [telnetReaderStateMachine, idle]
      · apply @takes_step _ { tr with command := telnetSb, bufNdx := 0, state := .rxSb }
        · intro log
          simp [telnetReaderStateMachine, telnetReaderHandleCommand, telnetSb, telnetIac, telnetDo,
            telnetDont, telnetWill, telnetWont]
        · exact takes_payload rfl rfl rfl payload

theorem takes_items {tr : TelnetReader} (idle : tr.state = .start) (items : List TelnetItem) :
    Takes tr (items.flatMap TelnetItem.encode) (items.flatMap TelnetItem.events) := by
  induction items generalizing tr with
  | nil =>
      intro log
      exact ⟨tr, idle, by simp⟩
  | cons item items ih =>
      rw [List.flatMap_cons, List.flatMap_cons]
      exact takes_append (takes_item idle item) fun next idle' => ih idle'

@[simp] theorem received_data (bytes : List UInt8) : received (bytes.map .databack) = bytes := by
  induction bytes with
  | nil => rfl
  | cons byte bytes ih =>
      exact congrArg (byte :: ·) ih

@[simp] theorem commandCount_data (bytes : List UInt8) :
    commandCount (bytes.map .databack) = 0 := by
  rw [commandCount, List.countP_eq_zero]
  intro event present
  rcases List.mem_map.mp present with ⟨byte, -, rfl⟩
  simp [TelnetEvent.data?]

theorem events_plain {item : TelnetItem} (plain : item.Plain) :
    received item.events = item.dataBytes ∧ commandCount item.events = item.commands := by
  cases item with
  | data bytes => exact ⟨received_data bytes, commandCount_data bytes⟩
  | command code plain => exact ⟨rfl, rfl⟩
  | negotiation verb opt known => exact ⟨rfl, rfl⟩
  | subnegotiation payload =>
      have taken := (leftover_eq_none_iff 32 payload).mpr plain
      simp only [TelnetItem.events, payloadEvents, taken]
      exact ⟨rfl, rfl⟩

/-- A payload that the reader gives up is not reported. -/
theorem events_broken {item : TelnetItem} (broken : ¬ item.Plain) :
    commandCount item.events < item.commands := by
  cases item with
  | data bytes => exact absurd trivial broken
  | command code plain => exact absurd trivial broken
  | negotiation verb opt known => exact absurd trivial broken
  | subnegotiation payload =>
      rcases left : leftover 32 payload with _ | rest
      · exact absurd ((leftover_eq_none_iff 32 payload).mp left) broken
      · simp only [TelnetItem.events, payloadEvents, left, commandCount_data]
        exact Nat.zero_lt_one

theorem commandCount_le (item : TelnetItem) : commandCount item.events ≤ item.commands := by
  by_cases plain : item.Plain
  · exact Nat.le_of_eq (events_plain plain).2
  · exact Nat.le_of_lt (events_broken plain)

theorem received_append (front back : List TelnetEvent) :
    received (front ++ back) = received front ++ received back :=
  List.filterMap_append

theorem commandCount_append (front back : List TelnetEvent) :
    commandCount (front ++ back) = commandCount front + commandCount back :=
  List.countP_append

def readerAfter (tr : TelnetReader) (bytes : List UInt8) : TelnetReader :=
  (telnetReaderFeed telnetLog (tr, []) bytes).1

theorem feed_log (tr : TelnetReader) (log : List TelnetEvent) (bytes : List UInt8) :
    telnetReaderFeed telnetLog (tr, log) bytes =
      (readerAfter tr bytes, log ++ (telnetReaderFeed telnetLog (tr, []) bytes).2) := by
  have shifted := @telnetReaderFeed_map _ _ telnetLog telnetLog (fun late => log ++ late)
    (fun _ late => List.append_assoc log late _) (fun _ late => List.append_assoc log late _) tr []
    bytes
  rw [List.append_nil] at shifted
  exact shifted

theorem readerAfter_append (tr : TelnetReader) (early late : List UInt8) :
    readerAfter tr (early ++ late) = readerAfter (readerAfter tr early) late := by
  rw [readerAfter, telnetReaderFeed_append, feed_log, feed_log]

def expectedCommands (items : List TelnetItem) : Nat := (items.map TelnetItem.commands).sum

theorem expectedCommands_cons (item : TelnetItem) (items : List TelnetItem) :
    expectedCommands (item :: items) = item.commands + expectedCommands items :=
  List.sum_cons

theorem commandCount_items_le (items : List TelnetItem) :
    commandCount (items.flatMap TelnetItem.events) ≤ expectedCommands items := by
  induction items with
  | nil => exact Nat.zero_le _
  | cons item items ih =>
      rw [List.flatMap_cons, commandCount_append, expectedCommands_cons]
      exact Nat.add_le_add (commandCount_le item) ih

/-- The observer got the data bytes of these items, in order and nothing else,
and one report for each negotiation and each subnegotiation. -/
def Transparent (log : List TelnetEvent) (items : List TelnetItem) : Prop :=
  received log = items.flatMap TelnetItem.dataBytes ∧ commandCount log = expectedCommands items

instance (log : List TelnetEvent) (items : List TelnetItem) : Decidable (Transparent log items) :=
  inferInstanceAs (Decidable (_ ∧ _))

theorem transparent_items_iff (items : List TelnetItem) :
    Transparent (items.flatMap TelnetItem.events) items ↔ ∀ item ∈ items, item.Plain := by
  induction items with
  | nil => simp [Transparent, received, commandCount, expectedCommands]
  | cons item items ih =>
      rw [Transparent, List.flatMap_cons, List.flatMap_cons, received_append, commandCount_append,
        expectedCommands_cons, List.forall_mem_cons, ← ih]
      constructor
      · rintro ⟨data, count⟩
        have first := commandCount_le item
        have rest := commandCount_items_le items
        have plain : item.Plain := by
          by_contra broken
          have lost := events_broken broken
          omega
        rcases events_plain plain with ⟨sameData, sameCount⟩
        rw [sameData] at data
        exact ⟨plain, List.append_cancel_left data, by omega⟩
      · rintro ⟨plain, data, count⟩
        rcases events_plain plain with ⟨sameData, sameCount⟩
        exact ⟨by rw [sameData, data], by rw [sameCount, count]⟩

/-- However the stream is cut, it is taken apart as it was put together exactly
when its subnegotiations are plain. -/
theorem telnet_transparent_iff (memory : TelnetReader) (items : List TelnetItem)
    (chunks : List (List UInt8)) (cut : chunks.flatten = items.flatMap TelnetItem.encode) :
    Transparent (chunks.foldl (telnetReaderFeed telnetLog) (telnetReaderInit memory, [])).2 items ↔
      ∀ item ∈ items, item.Plain := by
  have idle : (telnetReaderInit memory).state = .start := rfl
  rcases takes_items idle items [] with ⟨last, -, fed⟩
  rw [telnetReaderFeed_chunks, cut, fed]
  exact transparent_items_iff items

/-- Text with an escape code in it, an option, its parameters and an unknown
command, cut inside the codes. -/
theorem telnet_transparent_iff_session :
    Transparent ([[104, 255], [255, 255, 253], [1, 255, 250, 31, 0, 80, 255], [240, 255, 241]].foldl
        (telnetReaderFeed telnetLog) (telnetReaderInit ⟨Vector.replicate 32 0, 7, .rxSb, 0, 0⟩, [])).2
        [.data [104, 255], .negotiation telnetDo 1 (by decide), .subnegotiation [31, 0, 80],
          .command 241 (by decide)] ↔
      ∀ item ∈ [TelnetItem.data [104, 255], .negotiation telnetDo 1 (by decide),
        .subnegotiation [31, 0, 80], .command 241 (by decide)], item.Plain :=
  telnet_transparent_iff _ _ _ (by decide)

/-- A window 255 columns wide: its size is cut short and 24 is typed as data. -/
theorem not_transparent_window :
    ¬ Transparent (telnetReaderFeed telnetLog
        (telnetReaderInit ⟨Vector.replicate 32 0, 0, .start, 0, 0⟩, [])
        (TelnetItem.subnegotiation [31, 0, 255, 0, 24]).encode).2
      [.subnegotiation [31, 0, 255, 0, 24]] := by
  decide

end KongjaExpress.Protocols
