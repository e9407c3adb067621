import KongjaExpress.Library.Memory

/-! The reader of `telnet_reader.c`, which splits the bytes of a telnet connection
into data and commands. -/

namespace KongjaExpress.Protocols

open Memory

def telnetSe : UInt8 := 240

def telnetSb : UInt8 := 250

def telnetWill : UInt8 := 251

def telnetWont : UInt8 := 252

def telnetDo : UInt8 := 253

def telnetDont : UInt8 := 254

def telnetIac : UInt8 := 255

/-- `telnet_reader_state_t`. -/
inductive TelnetReaderState
  | start | rxIac | rxDoDontWillWont | rxSb | waitForSe
  deriving DecidableEq, Repr

/-- `telnet_reader_t` with its `buffer[TELNET_READER_BUFFER_SIZE]`; the callbacks are an
argument of the functions that call them. -/
structure TelnetReader where
  buffer : Vector UInt8 32
  bufNdx : UInt8
  state : TelnetReaderState
  command : UInt8
  opt : UInt8
  deriving DecidableEq, Repr

/-- The callbacks act on an environment `S`. -/
structure TelnetCallbacks (S : Type) where
  databack : UInt8 → S → S
  cmdback : TelnetReader → S → S

variable {S : Type}

def telnetReaderHandleCommand (tr : TelnetReader) (d : UInt8) : Bool × TelnetReader :=
  let tr := { tr with command := d }
  if d = telnetDo ∨ d = telnetDont ∨ d = telnetWill ∨ d = telnetWont then
    (true, { tr with state := .rxDoDontWillWont })
  else if d = telnetSb then
    (true, { tr with bufNdx := 0, state := .rxSb })
  else
    (false, tr)

def telnetReaderHandleSubcommand (tr : TelnetReader) (d : UInt8) : Bool × TelnetReader :=
  if d = telnetIac then
    (true, { tr with state := .waitForSe })
  else if room : tr.bufNdx.toNat < 32 then
    (true, { tr with
      buffer := tr.buffer.set tr.bufNdx.toNat d room
      bufNdx := tr.bufNdx + 1 })
  else
    (false, tr)

def telnetReaderStateMachine (cb : TelnetCallbacks S) :
    TelnetReader × S → UInt8 → TelnetReader × S
  | (tr, env), d =>
      match tr.state with
      | .start =>
          if d = telnetIac then ({ tr with state := .rxIac }, env) else (tr, cb.databack d env)
      | .rxIac =>
          if d = telnetIac then
            ({ tr with state := .start }, cb.databack telnetIac env)
          else
            match telnetReaderHandleCommand tr d with
            | (false, tr) => ({ tr with state := .start }, env)
            | (true, tr) => (tr, env)
      | .rxDoDontWillWont =>
          let tr := { tr with opt := d }
          let env := cb.cmdback tr env
          ({ tr with state := .start }, env)
      | .rxSb =>
          match telnetReaderHandleSubcommand tr d with
          | (false, tr) => ({ tr with state := .start }, env)
          | (true, tr) => (tr, env)
      | .waitForSe =>
          let env := if d = telnetSe then cb.cmdback tr env else env
          ({ tr with state := .start }, env)

/-- `telnet_reader_init` on memory with arbitrary contents. -/
def telnetReaderInit (memory : TelnetReader) : TelnetReader :=
  { memory with state := .start, bufNdx := 0 }

def telnetReaderFeed (cb : TelnetCallbacks S) (reader : TelnetReader × S) (data : List UInt8) :
    TelnetReader × S :=
  data.foldl (telnetReaderStateMachine cb) reader

theorem telnetReaderFeed_chunks (cb : TelnetCallbacks S) (reader : TelnetReader × S)
    (chunks : List (List UInt8)) :
    chunks.foldl (telnetReaderFeed cb) reader = telnetReaderFeed cb reader chunks.flatten := by
  induction chunks generalizing reader with
  | nil => rfl
  | cons chunk chunks ih =>
      rw [List.foldl_cons, ih, List.flatten_cons, telnetReaderFeed, telnetReaderFeed,
        telnetReaderFeed, List.foldl_append]

theorem telnetReaderFeed_append (cb : TelnetCallbacks S) (reader : TelnetReader × S)
    (front back : List UInt8) :
    telnetReaderFeed cb reader (front ++ back) =
      telnetReaderFeed cb (telnetReaderFeed cb reader front) back :=
  List.foldl_append

@[simp] theorem telnetReaderFeed_cons (cb : TelnetCallbacks S) (reader : TelnetReader × S)
    (d : UInt8) (data : List UInt8) :
    telnetReaderFeed cb reader (d :: data) =
      telnetReaderFeed cb (telnetReaderStateMachine cb reader d) data := rfl

@[simp] theorem telnetReaderFeed_nil (cb : TelnetCallbacks S) (reader : TelnetReader × S) :
    telnetReaderFeed cb reader [] = reader := rfl

def SameReader (left right : TelnetReader) : Prop :=
  left.state = right.state ∧ left.bufNdx = right.bufNdx

section Relation

variable {cb : TelnetCallbacks S} {R : S → S → Prop}
  (databack : ∀ d env env', R env env' → R (cb.databack d env) (cb.databack d env'))
  (cmdback : ∀ tr tr' env env', R env env' → R (cb.cmdback tr env) (cb.cmdback tr' env'))

include databack cmdback

theorem telnetReaderStateMachine_rel (d : UInt8) {left right : TelnetReader × S}
    (same : SameReader left.1 right.1) (related : R left.2 right.2) :
    SameReader (telnetReaderStateMachine cb left d).1 (telnetReaderStateMachine cb right d).1 ∧
      R (telnetReaderStateMachine cb left d).2 (telnetReaderStateMachine cb right d).2 := by
  rcases left with ⟨⟨buffer, bufNdx, state, command, opt⟩, env⟩
  rcases right with ⟨⟨buffer', bufNdx', state', command', opt'⟩, env'⟩
  obtain ⟨rfl, rfl⟩ : state = state' ∧ bufNdx = bufNdx' := same
  cases state with
  | start =>
      simp only [telnetReaderStateMachine]
      split_ifs
      · exact ⟨⟨rfl, rfl⟩, related⟩
      · exact ⟨⟨rfl, rfl⟩, databack d env env' related⟩
  | rxIac =>
      simp only [telnetReaderStateMachine, telnetReaderHandleCommand]
      by_cases doubled : d = telnetIac
      · rw [if_pos doubled, if_pos doubled]
        exact ⟨⟨rfl, rfl⟩, databack telnetIac env env' related⟩
      · rw [if_neg doubled, if_neg doubled]
        split_ifs <;> exact ⟨⟨rfl, rfl⟩, related⟩
  | rxDoDontWillWont => exact ⟨⟨rfl, rfl⟩, cmdback _ _ env env' related⟩
  | rxSb =>
      simp only [telnetReaderStateMachine, telnetReaderHandleSubcommand]
      split_ifs <;> exact ⟨⟨rfl, rfl⟩, related⟩
  | waitForSe =>
      simp only [telnetReaderStateMachine]
      split_ifs
      · exact ⟨⟨rfl, rfl⟩, cmdback _ _ env env' related⟩
      · exact ⟨⟨rfl, rfl⟩, related⟩

theorem telnetReaderFeed_rel (data : List UInt8) {left right : TelnetReader × S}
    (same : SameReader left.1 right.1) (related : R left.2 right.2) :
    SameReader (telnetReaderFeed cb left data).1 (telnetReaderFeed cb right data).1 ∧
      R (telnetReaderFeed cb left data).2 (telnetReaderFeed cb right data).2 := by
  induction data generalizing left right with
  | nil => exact ⟨same, related⟩
  | cons d data ih =>
      rw [telnetReaderFeed_cons, telnetReaderFeed_cons]
      obtain ⟨same, related⟩ := telnetReaderStateMachine_rel databack cmdback d same related
      exact ih same related

end Relation

section Map

variable {R R' : Type} {cb : TelnetCallbacks R} {cb' : TelnetCallbacks R'} (h : R → R')

/-- A reader whose callbacks are those of another one, seen through `h`. -/
theorem telnetReaderFeed_map
    (databack : ∀ d env, cb'.databack d (h env) = h (cb.databack d env))
    (cmdback : ∀ tr env, cb'.cmdback tr (h env) = h (cb.cmdback tr env))
    (tr : TelnetReader) (env : R) (bytes : List UInt8) :
    telnetReaderFeed cb' (tr, h env) bytes =
      Prod.map id h (telnetReaderFeed cb (tr, env) bytes) := by
  induction bytes generalizing tr env with
  | nil => rfl
  | cons d bytes ih =>
      have step : telnetReaderStateMachine cb' (tr, h env) d =
          Prod.map id h (telnetReaderStateMachine cb (tr, env) d) := by
        rcases tr with ⟨buffer, bufNdx, state, command, opt⟩
        cases state with
        | start =>
            simp only [telnetReaderStateMachine]
            split_ifs
            · rfl
            · rw [databack]
              rfl
        | rxIac =>
            simp only [telnetReaderStateMachine, telnetReaderHandleCommand]
            by_cases doubled : d = telnetIac
            · rw [if_pos doubled, if_pos doubled, databack]
              rfl
            · rw [if_neg doubled, if_neg doubled]
              split_ifs <;> rfl
        | rxDoDontWillWont =>
            simp only [telnetReaderStateMachine, cmdback]
            rfl
        | rxSb =>
            simp only [telnetReaderStateMachine, telnetReaderHandleSubcommand]
            split_ifs <;> rfl
        | waitForSe =>
            simp only [telnetReaderStateMachine]
            split_ifs
            · rw [cmdback]
              rfl
            · rfl
      rw [telnetReaderFeed_cons, telnetReaderFeed_cons, step]
      exact ih _ _

end Map

def escape (bytes : List UInt8) : List UInt8 :=
  bytes.flatMap fun byte => if byte = telnetIac then [telnetIac, telnetIac] else [byte]

@[simp] theorem escape_nil : escape [] = [] := rfl

theorem escape_cons_iac (bytes : List UInt8) :
    escape (telnetIac :: bytes) = telnetIac :: telnetIac :: escape bytes := by
  simp [escape]

theorem escape_cons_plain {byte : UInt8} (plain : byte ≠ telnetIac) (bytes : List UInt8) :
    escape (byte :: bytes) = byte :: escape bytes := by
  simp [escape, plain]

/-- Between two commands, escaped text goes to `databack` byte by byte. -/
theorem feed_escape (cb : TelnetCallbacks S) {tr : TelnetReader} (idle : tr.state = .start)
    (env : S) (bytes : List UInt8) :
    telnetReaderFeed cb (tr, env) (escape bytes) =
      (tr, bytes.foldl (fun env byte => cb.databack byte env) env) := by
  induction bytes generalizing env with
  | nil => rfl
  | cons byte bytes ih =>
      by_cases plain : byte = telnetIac
      · subst plain
        have same : { tr with state := .start } = tr := by rw [← idle]
        simp only [escape_cons_iac, telnetReaderFeed_cons, telnetReaderStateMachine, idle, if_true,
          same, ih, List.foldl_cons]
      · rw [escape_cons_plain plain, telnetReaderFeed_cons, List.foldl_cons, ← ih]
        simp only [telnetReaderStateMachine, idle, if_neg plain]

end KongjaExpress.Protocols
