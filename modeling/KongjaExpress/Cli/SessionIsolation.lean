import KongjaExpress.Cli.CliTelnet
import KongjaExpress.Library.Run

/-! Two telnet sessions whose memory came out of `malloc` with different contents. -/

namespace KongjaExpress.Cli

open Memory Tokens Protocols Transport Utils

variable {S : Type}

def SameLine (left right : CliIntf) : Prop :=
  left.cmdBufferNdx = right.cmdBufferNdx ∧
    AgreeBelow left.cmdBufferNdx.toNat left.cmdBuffer right.cmdBuffer

def SameCli {E : Type} (left right : CliIntf × E) : Prop :=
  SameLine left.1 right.1 ∧ left.2 = right.2

theorem typedWords_same {left right : CliIntf} (same : SameLine left right) :
    typedWords left = typedWords right := by
  rw [typedWords, typedWords, same.2.front_eq, same.1]

theorem cliHandleByte_same {E : Type} (ctx : CliContext E) (left right : CliIntf × E) (b : UInt8)
    (same : SameCli left right) :
    Option.Rel SameCli (cliHandleByte ctx left b) (cliHandleByte ctx right b) := by
  rcases left with ⟨left, env⟩
  rcases right with ⟨right, env'⟩
  obtain ⟨line, rfl⟩ : SameLine left right ∧ env = env' := same
  by_cases eol : b = cliEolChar
  · subst eol
    by_cases inside : left.cmdBufferNdx < 255
    · rcases (cliHandleByte_eol ctx left env).1 inside with ⟨buffer, ran⟩
      rcases (cliHandleByte_eol ctx right env).1 (line.1 ▸ inside) with ⟨buffer', ran'⟩
      rw [ran, ran', typedWords_same line]
      cases runLine ctx (typedWords right) env with
      | none => exact Option.Rel.none
      | some env => exact Option.Rel.some ⟨⟨rfl, fun i _ below => absurd below (by simp)⟩, rfl⟩
    · rw [(cliHandleByte_eol ctx left env).2 inside, (cliHandleByte_eol ctx right env).2 (line.1 ▸ inside)]
      exact Option.Rel.none
  · rcases left with ⟨ndx, leftBuffer⟩
    rcases right with ⟨ndx', rightBuffer⟩
    obtain ⟨rfl, agree⟩ : ndx = ndx' ∧ AgreeBelow ndx.toNat leftBuffer rightBuffer := line
    by_cases room : ndx.toNat < 252
    · by_cases rubout : b = 0x08 ∨ b = 0x7f
      · rw [cliHandleByte_delete ctx rubout room, cliHandleByte_delete ctx rubout room]
        by_cases stored : 0 < ndx
        · have moved : (ndx - 1).toNat ≤ ndx.toNat := by
            rw [← ndx_pred stored]
            exact Nat.le_succ _
          rw [if_pos stored, if_pos stored]
          exact Option.Rel.some ⟨⟨rfl, agree.mono moved⟩, rfl⟩
        · rw [if_neg stored, if_neg stored]
          exact Option.Rel.some ⟨⟨rfl, agree⟩, rfl⟩
      · have plain : Plain b := ⟨eol, not_or.mp rubout⟩
        rw [cliHandleByte_plain ctx plain room, cliHandleByte_plain ctx plain room]
        refine Option.Rel.some ⟨⟨rfl, ?_⟩, rfl⟩
        rw [ndx_succ room]
        exact agree.set_succ (by omega) b
    · rw [cliHandleByte_full ctx room eol, cliHandleByte_full ctx room eol]
      exact Option.Rel.some ⟨⟨rfl, agree⟩, rfl⟩

structure SameSession (left right : CliSession S) : Prop where
  line : SameLine left.cliIntf right.cliIntf
  reader : SameReader left.telnet right.telnet
  terminal : left.terminal = right.terminal

theorem telnetRxDataback_same (host : Host S) (d : UInt8) (env env' : Option (CliIntf × Terminal S))
    (same : Option.Rel SameCli env env') :
    Option.Rel SameCli ((telnetCallbacks host).databack d env)
      ((telnetCallbacks host).databack d env') := by
  change Option.Rel SameCli (telnetRxDataback host d env) (telnetRxDataback host d env')
  rw [telnetRxDataback, telnetRxDataback]
  split
  · exact same
  · cases same with
    | none => exact Option.Rel.none
    | some same => exact Run.foldlM_rel (cliHandleByte_same (cliContext host)) [d] same

theorem feed_same (host : Host S) (bytes : List UInt8) {left right : CliSession S}
    (same : SameSession left right) (terminal : Terminal S) :
    SameReader
        (telnetReaderFeed (telnetCallbacks host)
          (left.telnet, some (left.cliIntf, terminal)) bytes).1
        (telnetReaderFeed (telnetCallbacks host)
          (right.telnet, some (right.cliIntf, terminal)) bytes).1 ∧
      Option.Rel SameCli
        (telnetReaderFeed (telnetCallbacks host)
          (left.telnet, some (left.cliIntf, terminal)) bytes).2
        (telnetReaderFeed (telnetCallbacks host)
          (right.telnet, some (right.cliIntf, terminal)) bytes).2 :=
  telnetReaderFeed_rel (telnetRxDataback_same host) (fun _ _ _ _ related => related) bytes
    same.reader (Option.Rel.some ⟨same.line, rfl⟩)

theorem sessionStep_same (host : Host S) (left right : CliSession S) (event : SessionEvent)
    (same : SameSession left right) :
    Option.Rel SameSession (sessionStep host left event) (sessionStep host right event) := by
  cases event with
  | rx bytes =>
      simp only [sessionStep]
      rw [same.terminal]
      obtain ⟨reader, fed⟩ := feed_same host bytes same
        (right.terminal.received bytes)
      generalize telnetReaderFeed (telnetCallbacks host) (left.telnet, _) bytes = first at reader fed ⊢
      generalize telnetReaderFeed (telnetCallbacks host) (right.telnet, _) bytes = second
        at reader fed ⊢
      rcases first with ⟨tr, env⟩
      rcases second with ⟨tr', env'⟩
      cases fed with
      | none => exact Option.Rel.none
      | some related => exact Option.Rel.some ⟨related.1, reader, related.2⟩
  | tx result =>
      rw [sessionStep, sessionStep, same.terminal]
      cases streamHandleTxEvent right.terminal.stream result with
      | none => exact Option.Rel.none
      | some sent => exact Option.Rel.some ⟨same.line, same.reader, rfl⟩

/-- How a fresh connection answers the carriage return it is greeted with. -/
inductive Greeting
  | silent
  | tooMany
  | unknown (name : List UInt8)
  deriving DecidableEq, Repr

def lineGreeting (host : Host S) : List (List UInt8) → Option Greeting
  | [] => some .silent
  | name :: rest =>
      if 16 < (name :: rest).length then some .tooMany
      else if name ∈ (sessionCommands host).map (·.command) then none
      else some (.unknown name)

/-- The greeting that stands in the memory of a line buffer, if it is harmless. -/
def greeting (host : Host S) (intf : CliIntf) : Option Greeting :=
  if intf.cmdBufferNdx < 255 then lineGreeting host (typedWords intf) else none

def Greeting.texts : Greeting → List (List UInt8)
  | .silent => []
  | .tooMany => [cliEol ++ ascii "Error: too many arguments" ++ cliEol]
  | .unknown name => [cliEol ++ ascii "Unknown Command: ", name, cliEol]

theorem texts_injective {first second : Greeting} (same : first.texts = second.texts) :
    first = second := by
  cases first <;> cases second <;> simp_all [Greeting.texts]

def freshTerminal (host : Host S) (newsd : Int) (heap : Vector UInt8 128) (app : S) : Terminal S :=
  initTelnetSession host ⟨streamStart (streamInitWithFd newsd 128 heap), app, []⟩

variable {host : Host S} {newsd : Int} {heap : Vector UInt8 128} {app : S}

theorem typedWords_short {intf : CliIntf} {word : List UInt8} (member : word ∈ typedWords intf) :
    word.length ≤ 255 := by
  have bound := words_length member
  have taken := (List.takeWhile_prefix (· ≠ 0) (l := front intf.cmdBuffer intf.cmdBufferNdx.toNat)).length_le
  have size : (front intf.cmdBuffer intf.cmdBufferNdx.toNat).length ≤ 255 := by
    simp [front]
  omega

theorem print_texts {texts : List (List UInt8)} (short : ∀ text ∈ texts, text.length ≤ 511)
    (terminal : Terminal S) :
    texts.foldlM (fun terminal text => cliPrintf (cliContext host) text terminal) terminal =
      some (texts.foldl (fun terminal text => cliPutTxData host text terminal) terminal) := by
  induction texts generalizing terminal with
  | nil => rfl
  | cons text texts ih =>
      rw [List.foldlM_cons, cliPrintf_short _ (short text List.mem_cons_self)]
      exact ih (fun other member => short other (List.mem_cons_of_mem _ member)) _

theorem lineGreeting_cases {line : List (List UInt8)} {hello : Greeting}
    (harmless : lineGreeting host line = some hello) :
    (line = [] ∧ hello = .silent) ∨ (16 < line.length ∧ hello = .tooMany) ∨
      ∃ name rest, line = name :: rest ∧ line.length ≤ 16 ∧
        name ∉ (sessionCommands host).map (·.command) ∧ hello = .unknown name := by
  cases line with
  | nil => exact Or.inl ⟨rfl, (Option.some.inj harmless).symm⟩
  | cons name rest =>
      rw [lineGreeting] at harmless
      split_ifs at harmless with many known
      · exact Or.inr (Or.inl ⟨many, (Option.some.inj harmless).symm⟩)
      · exact Or.inr (Or.inr
          ⟨name, rest, rfl, Nat.le_of_not_lt many, known, (Option.some.inj harmless).symm⟩)

theorem runLine_greeting {intf : CliIntf} {hello : Greeting}
    (harmless : lineGreeting host (typedWords intf) = some hello) (terminal : Terminal S) :
    runLine (cliContext host) (typedWords intf) terminal =
      some (hello.texts.foldl (fun terminal text => cliPutTxData host text terminal) terminal) := by
  rcases lineGreeting_cases harmless with
    ⟨empty, rfl⟩ | ⟨many, rfl⟩ | ⟨name, rest, typed, few, unknown, rfl⟩
  · rw [empty]
    rfl
  · rw [runLine, if_neg (by omega)]
    exact cliPrintf_short _ (by decide) terminal
  · have bound : name.length ≤ 255 := typedWords_short (typed ▸ List.mem_cons_self)
    have missed : (sessionCommands host).find? (·.command = name) = none := by
      apply List.find?_eq_none.mpr
      intro command member named
      exact unknown (List.mem_map.mpr ⟨command, member, by simpa using named⟩)
    rw [runLine, if_pos few, typed, dispatch_unknown missed]
    apply print_texts
    simp only [List.mem_cons, List.not_mem_nil, or_false]
    rintro text (rfl | rfl | rfl)
    · decide
    · omega
    · decide

theorem allocCliConnection_byte (conn : CliConnection) :
    allocCliConnection host newsd heap app conn =
      (cliHandleByte (cliContext host) (conn.cliIntf, freshTerminal host newsd heap app)
        cliEolChar).map fun (cliIntf, terminal) =>
          ⟨cliIntf, telnetReaderInit conn.telnet, terminal⟩ := by
  simp only [allocCliConnection, cliHandleRx, List.foldlM_cons, List.foldlM_nil, bind_pure]
  rfl

theorem allocCliConnection_outside {conn : CliConnection}
    (outside : ¬ conn.cliIntf.cmdBufferNdx < 255) :
    allocCliConnection host newsd heap app conn = none := by
  rw [allocCliConnection_byte, (cliHandleByte_eol _ _ _).2 outside]
  rfl

/-- Accepting a connection runs what stands in its memory. -/
theorem allocCliConnection_inside {conn : CliConnection}
    (inside : conn.cliIntf.cmdBufferNdx < 255) :
    ∃ cmdBuffer, allocCliConnection host newsd heap app conn =
      (runLine (cliContext host) (typedWords conn.cliIntf)
        (freshTerminal host newsd heap app)).map fun terminal =>
          ⟨⟨0, cmdBuffer⟩, telnetReaderInit conn.telnet,
            cliPrompt (cliContext host) terminal⟩ := by
  rcases (cliHandleByte_eol (cliContext host) conn.cliIntf
    (freshTerminal host newsd heap app)).1 inside with ⟨cmdBuffer, ran⟩
  refine ⟨cmdBuffer, ?_⟩
  rw [allocCliConnection_byte, ran, Option.map_map]
  rfl

theorem greeted_effects (hello : Greeting) :
    (cliPrompt (cliContext host) (hello.texts.foldl
      (fun terminal text => cliPutTxData host text terminal)
      (freshTerminal host newsd heap app))).effects =
      ([iacsToSend] ++ hello.texts ++ [ascii "\r\nkjexpr > "]).map CliEffect.put := by
  have puts : ∀ (texts : List (List UInt8)) (terminal : Terminal S),
      (texts.foldl (fun terminal text => cliPutTxData host text terminal) terminal).effects =
        terminal.effects ++ texts.map CliEffect.put := by
    intro texts
    induction texts with
    | nil => exact fun terminal => (List.append_nil _).symm
    | cons text texts ih =>
        intro terminal
        rw [List.foldl_cons, ih, cliPutTxData, write_effects, List.append_assoc]
        rfl
  change (Terminal.write _ _ _).effects = _
  rw [write_effects, puts]
  change (Terminal.write _ _ _).effects ++ _ ++ _ = _
  rw [write_effects, List.map_append, List.map_append]
  rfl

def FitsLine (typed : List UInt8) : Prop := typed.length < 252 ∧ ∀ b ∈ typed, b ≠ 0 ∧ Plain b

/-- Accepting a connection executes no command, and then the line is what the client
types. -/
def CleanStart (host : Host S) (newsd : Int) (heap : Vector UInt8 128) (app : S)
    (conn : CliConnection) : Prop :=
  ∃ s, allocCliConnection host newsd heap app conn = some s ∧
    (∀ command argv, CliEffect.invoke command argv ∉ s.terminal.effects) ∧
    ∀ typed, FitsLine typed → ∃ next, sessionStep host s (.rx (escape typed)) = some next ∧
      front next.cliIntf.cmdBuffer next.cliIntf.cmdBufferNdx.toNat = typed

/-- Two contents of the memory that no client can tell apart. -/
structure Isolated (host : Host S) (newsd : Int) (heap : Vector UInt8 128) (app : S)
    (left right : CliConnection) : Prop where
  alike : ∀ events, (cliSession host newsd heap app left events).map (·.terminal) =
    (cliSession host newsd heap app right events).map (·.terminal)
  left : CleanStart host newsd heap app left
  right : CleanStart host newsd heap app right

theorem databack_fold (host : Host S) {typed : List UInt8} (nonzero : ∀ b ∈ typed, b ≠ 0)
    (env : Option (CliIntf × Terminal S)) :
    typed.foldl (fun env b => (telnetCallbacks host).databack b env) env =
      env.bind fun intf => cliHandleRx (cliContext host) intf typed := by
  induction typed generalizing env with
  | nil => cases env <;> rfl
  | cons b typed ih =>
      have back : (telnetCallbacks host).databack b env =
          env.bind fun intf => cliHandleRx (cliContext host) intf [b] :=
        if_neg (nonzero b List.mem_cons_self)
      rw [List.foldl_cons, ih (fun other member => nonzero other (List.mem_cons_of_mem _ member)),
        back, Option.bind_assoc]
      congr 1
      funext intf
      simp only [cliHandleRx, List.foldlM_cons, List.foldlM_nil, bind_pure]
      rfl

theorem types_line {s : CliSession S} (idle : s.telnet.state = .start)
    (empty : s.cliIntf.cmdBufferNdx = 0) {typed : List UInt8} (fits : FitsLine typed) :
    ∃ next, sessionStep host s (.rx (escape typed)) = some next ∧
      front next.cliIntf.cmdBuffer next.cliIntf.cmdBufferNdx.toNat = typed := by
  have zero : s.cliIntf.cmdBufferNdx.toNat = 0 := by rw [empty]; rfl
  have room : s.cliIntf.cmdBufferNdx.toNat + typed.length ≤ 252 := by
    have bound := fits.1
    omega
  rcases cliHandleRx_plain (cliContext host) (fun b member => (fits.2 b member).2) room
    (s.terminal.received (escape typed)) with ⟨after, ran, -, line⟩
  rw [zero, front_zero, List.nil_append] at line
  have moved : sessionStep host s (.rx (escape typed)) =
      (cliHandleRx (cliContext host) (s.cliIntf, s.terminal.received (escape typed)) typed).map
        fun (cliIntf, terminal) => ⟨cliIntf, s.telnet, terminal⟩ := by
    rw [sessionStep, feed_escape _ idle, databack_fold host fun b member => (fits.2 b member).1,
      Option.bind_some]
  rw [ran] at moved
  exact ⟨_, moved, line⟩

theorem greeted {conn : CliConnection} {hello : Greeting}
    (harmless : greeting host conn.cliIntf = some hello) :
    ∃ cmdBuffer, allocCliConnection host newsd heap app conn =
      some ⟨⟨0, cmdBuffer⟩, telnetReaderInit conn.telnet,
        cliPrompt (cliContext host) (hello.texts.foldl
          (fun terminal text => cliPutTxData host text terminal)
          (freshTerminal host newsd heap app))⟩ := by
  rw [greeting] at harmless
  split_ifs at harmless with inside
  rcases @allocCliConnection_inside S host newsd heap app conn inside with ⟨cmdBuffer, accepted⟩
  refine ⟨cmdBuffer, ?_⟩
  rw [accepted, runLine_greeting harmless]
  rfl

theorem cleanStart_iff {conn : CliConnection} :
    CleanStart host newsd heap app conn ↔ ∃ hello, greeting host conn.cliIntf = some hello := by
  constructor
  · rintro ⟨s, accepted, quiet, -⟩
    by_cases inside : conn.cliIntf.cmdBufferNdx < 255
    · rcases @allocCliConnection_inside S host newsd heap app conn inside with ⟨cmdBuffer, same⟩
      rw [greeting, if_pos inside]
      rw [same] at accepted
      rcases Option.map_eq_some_iff.mp accepted with ⟨terminal, ran, rfl⟩
      cases typed : typedWords conn.cliIntf with
      | nil => exact ⟨.silent, rfl⟩
      | cons name rest =>
          rw [typed, runLine] at ran
          rw [lineGreeting]
          split_ifs with many known
          · exact ⟨.tooMany, rfl⟩
          · -- the line is a command, and its call is noted
            rw [if_pos (Nat.le_of_not_lt many)] at ran
            have invoked := dispatch_invokes known ran
            refine absurd ?_ (quiet name (name :: rest))
            change _ ∈ (Terminal.write _ _ _).effects
            rw [write_effects]
            exact List.mem_append_left _ invoked
          · exact ⟨.unknown name, rfl⟩
    · rw [allocCliConnection_outside inside] at accepted
      cases accepted
  · rintro ⟨hello, harmless⟩
    rcases @greeted S host newsd heap app conn hello harmless with ⟨cmdBuffer, accepted⟩
    refine ⟨_, accepted, ?_, fun typed fits => types_line rfl rfl fits⟩
    intro command argv
    simp [greeted_effects]

theorem terminal_same {left right : Option (CliSession S)} (same : Option.Rel SameSession left right) :
    left.map (·.terminal) = right.map (·.terminal) := by
  cases same with
  | none => rfl
  | some same => exact congrArg some same.terminal

/-- Sessions are isolated exactly when the two memories hold the same harmless greeting. -/
theorem isolated_iff (host : Host S) (newsd : Int) (heap : Vector UInt8 128) (app : S)
    (left right : CliConnection) :
    Isolated host newsd heap app left right ↔
      ∃ hello, greeting host left.cliIntf = some hello ∧
        greeting host right.cliIntf = some hello := by
  constructor
  · intro isolated
    rcases cleanStart_iff.mp isolated.left with ⟨hello, harmless⟩
    rcases cleanStart_iff.mp isolated.right with ⟨hello', harmless'⟩
    rcases @greeted S host newsd heap app left hello harmless with ⟨buffer, accepted⟩
    rcases @greeted S host newsd heap app right hello' harmless' with ⟨buffer', accepted'⟩
    have terminals := isolated.alike []
    rw [cliSession, cliSession, accepted, accepted'] at terminals
    have effects := congrArg Terminal.effects (Option.some.inj terminals)
    change (cliPrompt (cliContext host) _).effects = (cliPrompt (cliContext host) _).effects at effects
    rw [greeted_effects, greeted_effects] at effects
    have texts : hello.texts = hello'.texts := by
      have puts := List.map_injective_iff.mpr (fun _ _ => CliEffect.put.inj) effects
      simpa using puts
    exact ⟨hello, harmless, texts_injective texts ▸ harmless'⟩
  · rintro ⟨hello, harmless, harmless'⟩
    refine ⟨?_, cleanStart_iff.mpr ⟨hello, harmless⟩, cleanStart_iff.mpr ⟨hello, harmless'⟩⟩
    intro events
    rcases @greeted S host newsd heap app left hello harmless with ⟨buffer, accepted⟩
    rcases @greeted S host newsd heap app right hello harmless' with ⟨buffer', accepted'⟩
    rw [cliSession, cliSession, accepted, accepted']
    apply terminal_same
    apply Run.foldlM_rel (sessionStep_same host)
    exact ⟨⟨rfl, fun i _ below => absurd below (by simp)⟩, ⟨rfl, rfl⟩, rfl⟩

def bareHost : Host Unit where
  write data _ := (.count data.length, ())
  userCommands := []

def usedMemory (line : List UInt8) : CliConnection where
  stream := streamInitWithFd 0 128 (Vector.replicate 128 0)
  cliIntf := ⟨UInt8.ofNat line.length, blit (Vector.replicate 255 0) 0 line⟩
  telnet := ⟨Vector.replicate 32 0, 0, .start, 0, 0⟩

/-- A connection that is accepted after somebody typed `version` and left runs that
command. -/
theorem left_over_line_runs :
    ((allocCliConnection bareHost 7 (Vector.replicate 128 0) () (usedMemory (ascii "version"))).map
        fun s => s.terminal.effects.contains (.invoke (ascii "version") [ascii "version"])) =
      some true ∧
    ¬ Isolated bareHost 7 (Vector.replicate 128 0) () (usedMemory []) (usedMemory (ascii "version")) := by
  constructor
  · decide +kernel
  · intro isolated
    rcases cleanStart_iff.mp isolated.right with ⟨hello, harmless⟩
    have command : greeting bareHost (usedMemory (ascii "version")).cliIntf = none := by
      decide +kernel
    rw [command] at harmless
    cases harmless

end KongjaExpress.Cli
