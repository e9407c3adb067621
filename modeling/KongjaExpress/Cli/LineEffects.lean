import KongjaExpress.Cli.CliServer
import Mathlib.Data.List.TakeWhile

/-! What the keys of a client do: a session carries out each line that they end, once, and
otherwise only writes. -/

namespace KongjaExpress.Cli

open Memory Protocols Tokens Transport Utils

variable {S A : Type} {host : Host S}

section Effects

variable (application : Application host A)

structure OnlyWrites (before after : Terminal S) : Prop where
  view : application.view after.app = application.view before.app
  calls : callsMade after.effects = callsMade before.effects

theorem OnlyWrites.refl (terminal : Terminal S) : OnlyWrites application terminal terminal :=
  ⟨rfl, rfl⟩

variable {application} {before middle after : Terminal S}

theorem OnlyWrites.trans (first : OnlyWrites application before middle)
    (second : OnlyWrites application middle after) : OnlyWrites application before after :=
  ⟨second.view.trans first.view, second.calls.trans first.calls⟩

theorem callsMade_append (early late : List CliEffect) :
    callsMade (early ++ late) = callsMade early ++ callsMade late := List.filterMap_append

theorem cliPutTxData_writes (data : List UInt8) (terminal : Terminal S) :
    OnlyWrites application terminal (cliPutTxData host data terminal) := by
  constructor
  · rw [cliPutTxData, Terminal.write]
    split
    · exact application.writes data terminal.app
    · rfl
  · rw [cliPutTxData, write_effects, callsMade_append]
    exact List.append_nil _

theorem cliPrintf_writes {ctx : CliContext (Terminal S)} (puts : ctx.putTxData = cliPutTxData host)
    {text : List UInt8} (printed : cliPrintf ctx text before = some after) :
    OnlyWrites application before after := by
  rw [cliPrintf, puts] at printed
  split at printed
  · obtain rfl := Option.some.inj printed
    exact cliPutTxData_writes _ before
  · contradiction

theorem print_writes {texts : List (List UInt8)} {ctx : CliContext (Terminal S)}
    (puts : ctx.putTxData = cliPutTxData host)
    (done : texts.foldlM (fun terminal text => cliPrintf ctx text terminal) before = some after) :
    OnlyWrites application before after := by
  apply Run.invariant _ (OnlyWrites.refl application before) done
  intro terminal text next written printed
  exact written.trans (cliPrintf_writes puts printed)

theorem coreCommands_write {command : CliCommand (Terminal S)}
    (core : command ∈ coreCommands (cliContext host)) {argv : List (List UInt8)}
    (done : command.handler argv before = some after) : OnlyWrites application before after := by
  apply coreCommands_keep _ core (OnlyWrites.refl application before) done
  intro text terminal next written printed
  exact written.trans (cliPrintf_writes rfl printed)

theorem attach_acts {user : UserCommand S} (member : user ∈ host.userCommands)
    {argv : List (List UInt8)} (done : (user.attach host).handler argv before = some after) :
    application.view after.app = application.act user argv (application.view before.app) ∧
      callsMade after.effects = callsMade before.effects := by
  have prints : (user.handler argv before.app).1.foldlM
      (fun terminal text => cliPrintf (plainContext host) text terminal)
      { before with app := (user.handler argv before.app).2 } = some after := done
  have written : OnlyWrites application _ after := print_writes rfl prints
  constructor
  · rw [written.view]
    exact application.acts user member argv before.app
  · exact written.calls

end Effects

section Lines

variable {application : Application host A} {before after : Terminal S}

structure CarriedOut (application : Application host A) (lines : List (List (List UInt8)))
    (before after : Terminal S) : Prop where
  view : application.view after.app =
    lines.foldl (fun app line => application.run line app) (application.view before.app)
  calls : callsMade after.effects = callsMade before.effects ++ lines.filterMap (lineCall host)

theorem OnlyWrites.carriedOut (quiet : OnlyWrites application before after) :
    CarriedOut application [] before after :=
  ⟨quiet.view, quiet.calls.trans (List.append_nil _).symm⟩

theorem CarriedOut.trans {early late : List (List (List UInt8))} {middle : Terminal S}
    (first : CarriedOut application early before middle)
    (second : CarriedOut application late middle after) :
    CarriedOut application (early ++ late) before after := by
  constructor
  · rw [second.view, first.view, List.foldl_append]
  · rw [second.calls, first.calls, List.filterMap_append, List.append_assoc]

theorem coreTexts_any (name : List UInt8) :
    (coreTexts.any fun text => decide (text.1 = name)) =
      ((coreCommands (cliContext host)).find? (·.command = name)).isSome := by
  rw [List.isSome_find?]
  rfl

theorem find_session (name : List UInt8) :
    (sessionCommands host).find? (·.command = name) =
      ((coreCommands (cliContext host)).find? (·.command = name)).or
        ((host.userCommands.find? (·.command = name)).map (UserCommand.attach host)) := by
  rw [sessionCommands, List.find?_append]
  congr 1
  change (host.userCommands.map (UserCommand.attach host)).find? _ = _
  rw [List.find?_map]
  rfl

theorem lineCall_known {name : List UInt8} {rest : List (List UInt8)}
    (few : (name :: rest).length ≤ 16) {command : CliCommand (Terminal S)}
    (found : (sessionCommands host).find? (·.command = name) = some command) :
    lineCall host (name :: rest) = some (name, name :: rest) := by
  have known : ((sessionCommands host).any fun command => decide (command.command = name)) =
      true := by
    rw [← List.isSome_find?, found]
    rfl
  rw [lineCall, if_pos few, List.head?_cons, Option.filter_some, if_pos known]
  rfl

theorem lineCall_unknown {name : List UInt8} {rest : List (List UInt8)}
    (missed : (sessionCommands host).find? (·.command = name) = none) :
    lineCall host (name :: rest) = none := by
  have unknown : ((sessionCommands host).any fun command => decide (command.command = name)) =
      false := by
    rw [← List.isSome_find?, missed]
    rfl
  rw [lineCall, List.head?_cons, Option.filter_some, unknown, if_neg Bool.false_ne_true]
  split_ifs <;> rfl

theorem run_named (application : Application host A) {name : List UInt8}
    {rest : List (List UInt8)} (few : (name :: rest).length ≤ 16) (app : A) :
    application.run (name :: rest) app =
      (userNamed host name).elim app fun user => application.act user (name :: rest) app := by
  rw [Application.run, if_pos few]
  rfl

theorem dispatch_carries {name : List UInt8} {rest : List (List UInt8)}
    (few : (name :: rest).length ≤ 16)
    (done : dispatch (cliContext host) (name :: rest) before = some after) :
    CarriedOut application [name :: rest] before after := by
  have puts : (cliContext host).putTxData = cliPutTxData host := rfl
  have search := @find_session S host name
  have core := @coreTexts_any S host name
  cases found : (sessionCommands host).find? (·.command = name) with
  | none =>
      rw [dispatch_unknown found] at done
      have quiet : OnlyWrites application before after := print_writes puts done
      rw [found, eq_comm, Option.or_eq_none_iff, Option.map_eq_none_iff] at search
      constructor
      · rw [quiet.view, List.foldl_cons, List.foldl_nil, run_named application few, userNamed,
          core, search.1, search.2]
        rfl
      · rw [quiet.calls, List.filterMap_cons_none (lineCall_unknown found), List.filterMap_nil,
          List.append_nil]
  | some command =>
      rw [dispatch_known found] at done
      rcases Option.bind_eq_some_iff.mp done with ⟨middle, printed, handled⟩
      have shown : OnlyWrites application before middle := cliPrintf_writes puts printed
      have noted : callsMade ((cliContext host).invoked name (name :: rest) middle).effects =
          callsMade before.effects ++ [(name, name :: rest)] := by
        rw [← shown.calls]
        exact callsMade_append _ _
      have call : [name :: rest].filterMap (lineCall host) = [(name, name :: rest)] :=
        List.filterMap_cons_some (lineCall_known few found)
      rw [found] at search
      cases first : (coreCommands (cliContext host)).find? (·.command = name) with
      | some entry =>
          rw [first, Option.some_or] at search
          obtain rfl := Option.some.inj search
          have quiet : OnlyWrites application _ after :=
            coreCommands_write (List.mem_of_find?_eq_some first) handled
          constructor
          · rw [List.foldl_cons, List.foldl_nil, run_named application few, userNamed, core, first,
              quiet.view, ← shown.view]
            rfl
          · rw [quiet.calls, noted, call]
      | none =>
          rw [first, Option.none_or] at search
          rcases Option.map_eq_some_iff.mp search.symm with ⟨user, named, rfl⟩
          have acted := @attach_acts S A host application _ after user
            (List.mem_of_find?_eq_some named) (name :: rest) handled
          constructor
          · rw [acted.1, List.foldl_cons, List.foldl_nil, run_named application few, userNamed,
              core, first, ← shown.view]
            simp only [Option.isSome_none, Bool.false_eq_true, if_false, named]
            rfl
          · rw [acted.2, noted, call]

theorem OnlyWrites.idle {line : List (List UInt8)} (quiet : OnlyWrites application before after)
    (runs : ∀ app, application.run line app = app) (silent : lineCall host line = none) :
    CarriedOut application [line] before after := by
  constructor
  · rw [quiet.view, List.foldl_cons, List.foldl_nil, runs]
  · rw [quiet.calls, List.filterMap_cons_none silent, List.filterMap_nil, List.append_nil]

theorem runLine_carries {line : List (List UInt8)}
    (done : runLine (cliContext host) line before = some after) :
    CarriedOut application [line] before after := by
  rw [runLine] at done
  split at done
  · rename_i few
    cases line with
    | nil =>
        obtain rfl := Option.some.inj done
        exact (OnlyWrites.refl application before).idle (fun _ => rfl) rfl
    | cons name rest => exact dispatch_carries few done
  · rename_i many
    have quiet : OnlyWrites application before after := cliPrintf_writes rfl done
    apply quiet.idle
    · intro app
      rw [Application.run, if_neg many]
    · rw [lineCall, if_neg many]

end Lines

section Keys

variable {application : Application host A} {before after : Terminal S} {intf next : CliIntf}

def endedBy (line : List UInt8) (key : UInt8) : List (List (List UInt8)) :=
  if key = cliEolChar then [words isBlank line] else []

theorem typeKey_eq (line : List UInt8) (lines : List (List (List UInt8))) (key : UInt8) :
    typeKey (line, lines) key = (nextLine line key, lines ++ endedBy line key) := by
  rw [typeKey, endedBy]
  split_ifs
  · rfl
  · rw [List.append_nil]

def endedFrom (line : List UInt8) (keys : List UInt8) : List (List (List UInt8)) :=
  (keys.foldl typeKey (line, [])).2

theorem foldl_typeKey (keys line : List UInt8) (lines : List (List (List UInt8))) :
    keys.foldl typeKey (line, lines) =
      (keys.foldl nextLine line, lines ++ endedFrom line keys) := by
  induction keys generalizing line lines with
  | nil => rw [endedFrom, List.foldl_nil, List.foldl_nil, List.foldl_nil, List.append_nil]
  | cons key keys ih =>
      have ended : endedFrom line (key :: keys) =
          endedBy line key ++ endedFrom (nextLine line key) keys := by
        rw [endedFrom, List.foldl_cons, typeKey_eq, ih, List.nil_append]
      calc (key :: keys).foldl typeKey (line, lines)
        _ = keys.foldl typeKey (nextLine line key, lines ++ endedBy line key) := by
            rw [List.foldl_cons, typeKey_eq]
        _ = (keys.foldl nextLine (nextLine line key),
              lines ++ endedBy line key ++ endedFrom (nextLine line key) keys) := ih _ _
        _ = ((key :: keys).foldl nextLine line, lines ++ endedFrom line (key :: keys)) := by
            rw [ended, List.append_assoc, List.foldl_cons]

theorem endedFrom_cons (line : List UInt8) (key : UInt8) (keys : List UInt8) :
    endedFrom line (key :: keys) = endedBy line key ++ endedFrom (nextLine line key) keys := by
  rw [endedFrom, List.foldl_cons, typeKey_eq, foldl_typeKey, List.nil_append]

theorem typing_append (early late : List UInt8) :
    typing (early ++ late) =
      (late.foldl nextLine (typing early).1,
        (typing early).2 ++ endedFrom (typing early).1 late) :=
  calc typing (early ++ late)
    _ = late.foldl typeKey (typing early) := List.foldl_append
    _ = _ := foldl_typeKey late (typing early).1 (typing early).2

theorem nextLine_nonzero {line : List UInt8} {key : UInt8} (clean : 0 ∉ line) (nonzero : key ≠ 0) :
    0 ∉ nextLine line key := by
  rw [nextLine]
  split_ifs
  · exact List.not_mem_nil
  · intro member
    rw [LineEditor.editUntilFull, LineEditor.edit] at member
    split_ifs at member
    · exact clean (List.mem_of_mem_dropLast member)
    · rcases List.mem_append.mp member with old | new
      · exact clean old
      · exact nonzero (List.mem_singleton.mp new).symm
    · exact clean member

theorem typedWords_line (clean : 0 ∉ intf.line) : typedWords intf = words isBlank intf.line := by
  have whole : intf.line.takeWhile (· ≠ 0) = intf.line := by
    apply List.takeWhile_eq_self_iff.mpr
    intro byte member
    apply decide_eq_true
    intro zero
    exact clean (zero ▸ member)
  rw [typedWords, ← CliIntf.line, whole]

theorem cliHandleByte_carries {key : UInt8} (clean : 0 ∉ intf.line)
    (ran : cliHandleByte (cliContext host) (intf, before) key = some (next, after)) :
    CarriedOut application (endedBy intf.line key) before after := by
  have puts : (cliContext host).putTxData = cliPutTxData host := rfl
  by_cases eol : key = cliEolChar
  · subst eol
    rw [endedBy, if_pos rfl]
    by_cases inside : intf.cmdBufferNdx < 255
    · rcases (cliHandleByte_eol (cliContext host) intf before).1 inside with ⟨cmdBuffer, same⟩
      rw [same, typedWords_line clean] at ran
      rcases Option.map_eq_some_iff.mp ran with ⟨middle, done, prompted⟩
      obtain ⟨-, rfl⟩ := Prod.mk.inj prompted
      have prompt : OnlyWrites application middle (cliPrompt (cliContext host) middle) :=
        cliPutTxData_writes _ middle
      exact (runLine_carries done).trans prompt.carriedOut
    · rw [(cliHandleByte_eol (cliContext host) intf before).2 inside] at ran
      contradiction
  · rw [endedBy, if_neg eol]
    apply OnlyWrites.carriedOut
    by_cases room : intf.cmdBufferNdx.toNat < 252
    · by_cases deletes : Deletes key
      · rw [cliHandleByte_delete _ deletes room, Option.some.injEq] at ran
        split_ifs at ran
        · obtain ⟨-, rfl⟩ := Prod.mk.inj ran
          exact cliPutTxData_writes _ before
        · obtain ⟨-, rfl⟩ := Prod.mk.inj ran
          exact .refl application before
      · rw [cliHandleByte_plain _ ⟨eol, not_or.mp deletes⟩ room] at ran
        obtain ⟨-, rfl⟩ := Prod.mk.inj (Option.some.inj ran)
        exact cliPutTxData_writes _ before
    · rw [cliHandleByte_full _ room eol] at ran
      obtain ⟨-, rfl⟩ := Prod.mk.inj (Option.some.inj ran)
      exact .refl application before

theorem cliHandleRx_carries {keys : List UInt8} (nonzero : 0 ∉ keys) (within : WithinLine intf)
    (clean : 0 ∉ intf.line)
    (ran : cliHandleRx (cliContext host) (intf, before) keys = some (next, after)) :
    CarriedOut application (endedFrom intf.line keys) before after := by
  induction keys generalizing intf before with
  | nil =>
      obtain ⟨-, rfl⟩ := Prod.mk.inj (Option.some.inj ran)
      exact (OnlyWrites.refl application before).carriedOut
  | cons key keys ih =>
      rcases Run.foldlM_cons_some ran with ⟨⟨middle, terminal⟩, taken, rest⟩
      rw [List.mem_cons, not_or] at nonzero
      have edited := cliHandleByte_line within taken
      have clean' : 0 ∉ middle.line := edited.2 ▸ nextLine_nonzero clean (Ne.symm nonzero.1)
      rw [endedFrom_cons, ← edited.2]
      exact (cliHandleByte_carries clean taken).trans (ih nonzero.2 edited.1 clean' rest)

end Keys

section Progress

variable {intf : CliIntf}

theorem print_runs {ctx : CliContext (Terminal S)} {texts : List (List UInt8)}
    (short : ∀ text ∈ texts, text.length ≤ 511) (terminal : Terminal S) :
    (texts.foldlM (fun terminal text => cliPrintf ctx text terminal) terminal).isSome := by
  apply (Run.foldlM_isSome _ terminal).mpr short
  intro text member terminal
  rw [cliPrintf_short ctx (short text member)]
  exact iff_of_true rfl (short text member)

theorem leftAligned_length (text : List UInt8) :
    (leftAligned text).length = max text.length 10 := by
  rw [leftAligned, List.length_append, List.length_replicate]
  omega

theorem help_texts (modest : Modest host) :
    ∀ entry ∈ coreTexts ++ (cliContext host).userCommands.map
      (fun command => (command.command, command.helpStr)),
      entry.1.length ≤ 501 ∧ entry.2.length ≤ 509 := by
  intro entry member
  rcases List.mem_append.mp member with core | user
  · exact (show ∀ entry ∈ coreTexts, entry.1.length ≤ 501 ∧ entry.2.length ≤ 509 by decide)
      entry core
  · rcases List.mem_map.mp user with ⟨command, attached, rfl⟩
    rcases List.mem_map.mp attached with ⟨source, listed, rfl⟩
    exact ⟨modest.command source listed, modest.helpStr source listed⟩

theorem help_runs (modest : Modest host) (argv : List (List UInt8)) (terminal : Terminal S) :
    (cliCommandHelp (cliContext host) argv terminal).isSome := by
  have first := cliPrintf_short (cliContext host) (show cliEol.length ≤ 511 by decide) terminal
  simp only [cliCommandHelp, first, Option.bind_eq_bind, Option.bind_some]
  apply (Run.foldlM_isSome _ _).mpr (help_texts modest)
  rintro ⟨name, helpStr⟩ member terminal
  have short : name.length ≤ 501 ∧ helpStr.length ≤ 509 := help_texts modest _ member
  have fits : (leftAligned name ++ ascii ": ").length ≤ 511 := by
    have colon : (ascii ": ").length = 2 := by decide
    rw [List.length_append, leftAligned_length]
    omega
  have fits' : (helpStr ++ cliEol).length ≤ 511 := by
    have eol : cliEol.length = 2 := by decide
    rw [List.length_append]
    omega
  simp only [cliPrintf_short _ fits, Option.bind_some, cliPrintf_short _ fits']
  exact iff_of_true rfl short

theorem handler_runs (modest : Modest host) {command : CliCommand (Terminal S)}
    (member : command ∈ sessionCommands host) (argv : List (List UInt8)) (terminal : Terminal S) :
    (command.handler argv terminal).isSome := by
  rcases List.mem_append.mp member with core | user
  · cases coreCommands_handler core with
    | inl help =>
        rw [help]
        exact help_runs modest argv terminal
    | inr version =>
        have both := @print_runs S (cliContext host)
          [cliEol, ascii "KongjaExpress CLI V1.0" ++ cliEol] (by decide) terminal
        rw [version]
        simpa [cliCommandVersion] using both
  · rcases List.mem_map.mp user with ⟨source, listed, rfl⟩
    exact print_runs (modest.prints source listed argv terminal.app) _

/-- A line of words that fit in the print buffer is carried out. -/
theorem runLine_runs (modest : Modest host) {line : List (List UInt8)}
    (short : ∀ word ∈ line, word.length ≤ 255) (terminal : Terminal S) :
    (runLine (cliContext host) line terminal).isSome := by
  rw [runLine]
  split_ifs with few
  · cases line with
    | nil => rfl
    | cons name rest =>
        have bound := short name List.mem_cons_self
        cases found : (sessionCommands host).find? (·.command = name) with
        | none =>
            rw [dispatch_unknown found]
            apply print_runs
            intro text member
            simp only [List.mem_cons, List.not_mem_nil, or_false] at member
            rcases member with rfl | rfl | rfl
            · decide
            · omega
            · decide
        | some command =>
            have fits : (cliEol ++ ascii "Executing " ++ name ++ cliEol).length ≤ 511 := by
              have sizes : cliEol.length = 2 ∧ (ascii "Executing ").length = 10 := by decide
              simp only [List.length_append]
              omega
            rw [dispatch_known found, cliPrintf_short _ fits, Option.bind_some]
            exact handler_runs modest (List.mem_of_find?_eq_some found) _ _
  · rw [cliPrintf_short _ (by decide)]
    rfl

theorem cliHandleRx_runs (modest : Modest host) (keys : List UInt8) (within : WithinLine intf)
    (terminal : Terminal S) : (cliHandleRx (cliContext host) (intf, terminal) keys).isSome := by
  apply cliHandleRx_goes within
  intro front _ now terminal _
  exact runLine_runs modest (fun word member => typedWords_short member) terminal

end Progress

end KongjaExpress.Cli
