import Mathlib.Tactic

/-! Streams that are concatenations of code words and reach a decoder one symbol
at a time, cut into chunks at arbitrary places. -/

namespace KongjaExpress.Framing

variable {ω β σ S : Type}

/-- The leading words that lie wholly within the first `count` symbols. -/
def complete (encode : ω → List β) : Nat → List ω → List ω
  | _, [] => []
  | count, word :: words =>
      if (encode word).length ≤ count then
        word :: complete encode (count - (encode word).length) words
      else []

/-- `tail` is a proper part of the next word, or empty when no word is left. -/
def PartOf (encode : ω → List β) (tail : List β) : List ω → Prop
  | [] => tail = []
  | word :: _ => tail <+: encode word ∧ tail.length < (encode word).length

/-- The environment `s` becomes `t` by the deliveries of `words`, in order. -/
inductive Emits (emit : ω → S → S → Prop) : List ω → S → S → Prop
  | nil (s : S) : Emits emit [] s s
  | cons {word : ω} {words : List ω} {s t u : S} (first : emit word s t)
      (rest : Emits emit words t u) : Emits emit (word :: words) s u

theorem Emits.of_nil {emit : ω → S → S → Prop} {s t : S} (emits : Emits emit [] s t) : t = s := by
  cases emits
  rfl

theorem Emits.append {emit : ω → S → S → Prop} {front back : List ω} {s t u : S}
    (first : Emits emit front s t) (second : Emits emit back t u) :
    Emits emit (front ++ back) s u := by
  induction first with
  | nil => exact second
  | cons head _ ih => exact .cons head (ih second)

/-- Deliveries seen through `f`, under a condition every delivery keeps. -/
theorem Emits.image {ω' T : Type} {emit : ω → S → S → Prop} {emit' : ω' → T → T → Prop}
    {P : S → Prop} {f : S → T} {g : ω → ω'} {words : List ω} {s t : S}
    (step : ∀ word s t, emit word s t → P s → P t ∧ emit' (g word) (f s) (f t))
    (emits : Emits emit words s t) (holds : P s) :
    P t ∧ Emits emit' (words.map g) (f s) (f t) := by
  induction emits with
  | nil s => exact ⟨holds, .nil (f s)⟩
  | cons head _ ih =>
      rcases step _ _ _ head holds with ⟨kept, first⟩
      rcases ih kept with ⟨last, rest⟩
      exact ⟨last, .cons first rest⟩

/-- How a cut of the stream decides which words are complete. -/
theorem complete_eq {encode : ω → List β} {rest : List ω} {tail : List β}
    (part : PartOf encode tail rest) (done : List ω) :
    complete encode (done.flatMap encode ++ tail).length (done ++ rest) = done := by
  induction done with
  | nil =>
      cases rest with
      | nil => rfl
      | cons word words =>
          have short : ¬ (encode word).length ≤ tail.length := by
            have := part.2
            omega
          simp [complete, short]
  | cons word done ih =>
      have fits : (encode word).length ≤
          ((word :: done).flatMap encode ++ tail).length := by
        simp only [List.flatMap_cons, List.append_assoc, List.length_append]
        omega
      have left : ((word :: done).flatMap encode ++ tail).length - (encode word).length =
          (done.flatMap encode ++ tail).length := by
        simp only [List.flatMap_cons, List.append_assoc, List.length_append]
        omega
      rw [List.cons_append, complete, if_pos fits, left, ih]

theorem complete_all {encode : ω → List β} (words : List ω) :
    complete encode (words.flatMap encode).length words = words := by
  have part : PartOf encode [] [] := rfl
  have whole := complete_eq part
  simpa using whole words

/-- A decoder that holds a part of a word: symbols inside a word are taken in
silently, a word's last symbol delivers the word and leaves nothing held. -/
structure Decoder (encode : ω → List β) (step : σ → β → Option σ)
    (Holds : List β → σ → Prop) (env : σ → S) (emit : ω → S → S → Prop) : Prop where
  nonempty : ∀ word, encode word ≠ []
  extend : ∀ word tail symbol s, Holds tail s → tail ++ [symbol] <+: encode word →
    (tail ++ [symbol]).length < (encode word).length →
    ∃ next, step s symbol = some next ∧ Holds (tail ++ [symbol]) next ∧ env next = env s
  finish : ∀ word tail symbol s, Holds tail s → tail ++ [symbol] = encode word →
    ∃ next, step s symbol = some next ∧ Holds [] next ∧ emit word (env s) (env next)

theorem partOf_nil {encode : ω → List β} (nonempty : ∀ word, encode word ≠ [])
    (words : List ω) : PartOf encode [] words := by
  cases words with
  | nil => rfl
  | cons word words => exact ⟨List.nil_prefix, List.length_pos_iff.mpr (nonempty word)⟩

/-- Whatever part of the stream has arrived, the decoder has delivered the words
that are complete and holds the rest. -/
theorem Decoder.feed {encode : ω → List β} {step : σ → β → Option σ}
    {Holds : List β → σ → Prop} {env : σ → S} {emit : ω → S → S → Prop}
    (decoder : Decoder encode step Holds env emit) (chunk : List β) :
    ∀ (tail : List β) (words : List ω) (s : σ), Holds tail s → PartOf encode tail words →
      tail ++ chunk <+: words.flatMap encode →
      ∃ done rest left last, words = done ++ rest ∧
        tail ++ chunk = done.flatMap encode ++ left ∧ PartOf encode left rest ∧
        chunk.foldlM step s = some last ∧ Holds left last ∧
        Emits emit done (env s) (env last) := by
  induction chunk with
  | nil =>
      intro tail words s holds part within
      exact ⟨[], words, tail, s, rfl, by simp, part, rfl, holds, .nil _⟩
  | cons symbol chunk ih =>
      intro tail words s holds part within
      cases words with
      | nil => simp at within
      | cons word words =>
          have arrived : (tail ++ [symbol]) ++ chunk <+: encode word ++ words.flatMap encode := by
            simpa using within
          have inside : tail ++ [symbol] <+: encode word := by
            have short : (tail ++ [symbol]).length ≤ (encode word).length := by
              have := part.2
              simp only [List.length_append, List.length_singleton]
              omega
            exact List.prefix_of_prefix_length_le
              ((List.prefix_append _ chunk).trans arrived) (List.prefix_append _ _) short
          by_cases proper : (tail ++ [symbol]).length < (encode word).length
          · obtain ⟨next, taken, held, same⟩ :=
              decoder.extend word tail symbol s holds inside proper
            obtain ⟨done, rest, left, last, split, bytes, partial', ran, kept, emits⟩ :=
              ih (tail ++ [symbol]) (word :: words) next held ⟨inside, proper⟩
                (by simpa using arrived)
            refine ⟨done, rest, left, last, split, by simpa using bytes, partial', ?_, kept, ?_⟩
            · simp [List.foldlM_cons, taken, ran]
            · rwa [same] at emits
          · have whole : tail ++ [symbol] = encode word :=
              inside.eq_of_length (le_antisymm inside.length_le (by omega))
            obtain ⟨next, taken, held, delivered⟩ :=
              decoder.finish word tail symbol s holds whole
            have remaining : [] ++ chunk <+: words.flatMap encode := by
              rw [whole] at arrived
              simpa using (List.prefix_append_right_inj _).mp arrived
            obtain ⟨done, rest, left, last, split, bytes, partial', ran, kept, emits⟩ :=
              ih [] words next held (partOf_nil decoder.nonempty words) remaining
            refine ⟨word :: done, rest, left, last, by rw [split, List.cons_append], ?_,
              partial', ?_, kept, .cons delivered emits⟩
            · rw [List.flatMap_cons, List.append_assoc, ← bytes, ← whole]
              simp
            · simp [List.foldlM_cons, taken, ran]

/-- The words whose last symbol is among those after the first `before`, up to `after`. -/
def between (encode : ω → List β) (words : List ω) (before after : Nat) : List ω :=
  (complete encode after words).drop (complete encode before words).length

theorem complete_mono {encode : ω → List β} (words : List ω) {before after : Nat}
    (le : before ≤ after) : complete encode before words <+: complete encode after words := by
  induction words generalizing before after with
  | nil => exact List.nil_prefix
  | cons word words ih =>
      by_cases early : (encode word).length ≤ before
      · rw [complete, complete, if_pos early, if_pos (early.trans le)]
        exact (List.prefix_cons_inj word).mpr (ih (by omega))
      · rw [complete, if_neg early]
        exact List.nil_prefix

theorem between_append {encode : ω → List β} (words : List ω) {before now after : Nat}
    (first : before ≤ now) (second : now ≤ after) :
    between encode words before now ++ between encode words now after =
      between encode words before after := by
  rcases @complete_mono ω β encode words _ _ first with ⟨early, now_eq⟩
  rcases @complete_mono ω β encode words _ _ second with ⟨late, after_eq⟩
  rw [between, between, between, ← after_eq, ← now_eq, List.drop_left, List.drop_left,
    List.append_assoc, List.drop_left]

theorem between_zero {encode : ω → List β} (nonempty : ∀ word, encode word ≠ [])
    (words : List ω) (after : Nat) : between encode words 0 after = complete encode after words := by
  have none : complete encode 0 words = [] := by
    cases words with
    | nil => rfl
    | cons word words =>
        have positive := List.length_pos_iff.mpr (nonempty word)
        rw [complete, if_neg (by omega)]
  rw [between, none]
  rfl

theorem between_self {encode : ω → List β} (words : List ω) (count : Nat) :
    between encode words count count = [] :=
  List.drop_length

/-- The decoder has taken in the first `count` symbols of the stream of `words`. -/
def At (encode : ω → List β) (Holds : List β → σ → Prop) (words : List ω) (count : Nat)
    (s : σ) : Prop :=
  ∃ done rest tail, words = done ++ rest ∧ count = (done.flatMap encode ++ tail).length ∧
    PartOf encode tail rest ∧ Holds tail s

theorem at_zero {encode : ω → List β} {Holds : List β → σ → Prop} {s : σ}
    (nonempty : ∀ word, encode word ≠ []) (words : List ω) (holds : Holds [] s) :
    At encode Holds words 0 s :=
  ⟨[], words, [], rfl, rfl, partOf_nil nonempty words, holds⟩

theorem PartOf.isPrefix {encode : ω → List β} {tail : List β} {words : List ω}
    (part : PartOf encode tail words) : tail <+: words.flatMap encode := by
  cases words with
  | nil =>
      obtain rfl : tail = [] := part
      exact List.nil_prefix
  | cons word words =>
      rw [List.flatMap_cons]
      exact part.1.trans (List.prefix_append _ _)

/-- Any next part of the stream delivers the words it completes. -/
theorem Decoder.advance {encode : ω → List β} {step : σ → β → Option σ}
    {Holds : List β → σ → Prop} {env : σ → S} {emit : ω → S → S → Prop}
    (decoder : Decoder encode step Holds env emit) {words : List ω} {count : Nat} {s : σ}
    (here : At encode Holds words count s) {chunk : List β}
    (next : chunk <+: (words.flatMap encode).drop count) :
    ∃ last, chunk.foldlM step s = some last ∧
      At encode Holds words (count + chunk.length) last ∧
      Emits emit (between encode words count (count + chunk.length)) (env s) (env last) := by
  rcases here with ⟨done, rest, tail, rfl, rfl, part, holds⟩
  have remaining : tail ++ chunk <+: rest.flatMap encode := by
    rcases part.isPrefix with ⟨later, stream⟩
    rw [List.flatMap_append, ← stream, ← List.append_assoc, List.drop_left] at next
    rw [← stream]
    exact (List.prefix_append_right_inj tail).mpr next
  rcases decoder.feed chunk tail rest s holds part remaining with
    ⟨done', rest', left, last, rfl, bytes, part', run, held, emits⟩
  have consumed : (done.flatMap encode ++ tail).length + chunk.length =
      ((done ++ done').flatMap encode ++ left).length := by
    have sizes := congrArg List.length bytes
    simp only [List.flatMap_append, List.length_append] at sizes ⊢
    omega
  have before := complete_eq part done
  have after := complete_eq part' (done ++ done')
  rw [← consumed, List.append_assoc] at after
  refine ⟨last, run, ⟨done ++ done', rest', left, (List.append_assoc ..).symm, consumed, part',
    held⟩, ?_⟩
  rwa [between, before, after, List.drop_left]

theorem between_single {encode : ω → List β} (word : ω) {before after : Nat}
    (early : before < (encode word).length) :
    between encode [word] before after = if (encode word).length ≤ after then [word] else [] := by
  have none : complete encode before [word] = [] := by
    rw [complete, if_neg (not_le.mpr early)]
  rw [between, none, complete]
  split_ifs <;> rfl

theorem At.whole {encode : ω → List β} {Holds : List β → σ → Prop} {word : ω} {s : σ}
    (taken : At encode Holds [word] (encode word).length s) : Holds [] s := by
  rcases taken with ⟨done, rest, tail, split, count, part, holds⟩
  cases rest with
  | nil =>
      obtain rfl : tail = [] := part
      exact holds
  | cons next rest =>
      cases done with
      | nil =>
          obtain ⟨rfl, -⟩ := List.cons.inj split
          have short := part.2
          rw [List.flatMap_nil, List.nil_append] at count
          omega
      | cons first done => simp at split

theorem foldlM_chunks (step : σ → β → Option σ) (chunks : List (List β)) (s : σ) :
    chunks.foldlM (fun s chunk => chunk.foldlM step s) s = chunks.flatten.foldlM step s := by
  induction chunks generalizing s with
  | nil => rfl
  | cons chunk chunks ih =>
      simp only [List.foldlM_cons, List.flatten_cons, List.foldlM_append]
      congr 1
      funext next
      exact ih next

end KongjaExpress.Framing
