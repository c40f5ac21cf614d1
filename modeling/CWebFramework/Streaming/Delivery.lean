import Mathlib.Data.List.Basic

/-!
# Delivery of a stream in chunks

A producer fills one chunk after the other, and a consumer takes as much of the
current chunk as it likes at each call; the next chunk is filled when the
current one has been taken.  When every chunk is the front of what is left to
be produced, the consumer gets exactly that, whatever it takes at each call.
-/

namespace CWebFramework.Streaming

universe u v

structure Chunk (Symbol : Type u) where
  symbols : List Symbol
  isLast : Bool

inductive Ending where
  | waiting
  | finished
  | failed
  deriving DecidableEq, Repr

structure Delivery (Symbol : Type u) where
  sent : List Symbol
  ending : Ending
  deriving DecidableEq, Repr

variable {Symbol : Type u} {State : Type v}

def Delivery.after (front : List Symbol) (delivery : Delivery Symbol) : Delivery Symbol :=
  { delivery with sent := front ++ delivery.sent }

section Loop

variable (fill : State → Option (Chunk Symbol × State))

/-- The calls of the consumer, with what it takes at each, when a chunk is in
the buffer. -/
def offer : List Nat → Chunk Symbol → State → Delivery Symbol
  | [], _, _ => ⟨[], .waiting⟩
  | taken :: answers, chunk, state =>
    let left := chunk.symbols.drop taken
    let rest :=
      if left ≠ [] then offer answers { chunk with symbols := left } state
      else if chunk.isLast then ⟨[], .finished⟩
      else
        match fill state with
        | none => ⟨[], .failed⟩
        | some (next, state) => offer answers next state
    rest.after (chunk.symbols.take taken)

def deliver (answers : List Nat) (state : State) : Delivery Symbol :=
  match fill state with
  | none => ⟨[], .failed⟩
  | some (chunk, state) => offer fill answers chunk state

/-- Every chunk is the front of what is left, only the last one may be empty,
and nothing is left behind the last one. -/
structure Produces (valid : State → Prop) (pending : State → List Symbol) : Prop where
  step : ∀ state, valid state → ∃ chunk next, fill state = some (chunk, next) ∧
    chunk.symbols ++ pending next = pending state ∧
    (chunk.isLast = true → pending next = []) ∧
    (chunk.isLast = false → chunk.symbols ≠ [] ∧ valid next)

end Loop

/-- The consumer has got a front of the stream, and all of it at the end. -/
structure Delivers (delivery : Delivery Symbol) (stream : List Symbol) : Prop where
  sound : delivery.ending ≠ .failed
  front : delivery.sent <+: stream
  whole : delivery.ending = .finished → delivery.sent = stream

theorem Delivers.after {delivery : Delivery Symbol} {stream : List Symbol}
    (delivers : Delivers delivery stream) (front : List Symbol) :
    Delivers (delivery.after front) (front ++ stream) := by
  refine ⟨delivers.sound, ?_, fun isEnd => ?_⟩
  · exact (List.prefix_append_right_inj front).mpr delivers.front
  · rw [Delivery.after, delivers.whole isEnd]

section Rule

variable {fill : State → Option (Chunk Symbol × State)}
  {valid : State → Prop} {pending : State → List Symbol}

/-- The stream from a chunk in the buffer on. -/
structure Offers (valid : State → Prop) (pending : State → List Symbol)
    (chunk : Chunk Symbol) (state : State) (stream : List Symbol) :
    Prop where
  stream : chunk.symbols ++ pending state = stream
  last : chunk.isLast = true → pending state = []
  more : chunk.isLast = false → valid state

theorem Produces.offer_delivers (produces : Produces fill valid pending)
    {chunk : Chunk Symbol} {state : State} {stream : List Symbol}
    (offers : Offers valid pending chunk state stream) (answers : List Nat) :
    Delivers (offer fill answers chunk state) stream := by
  induction answers generalizing chunk state stream with
  | nil => exact ⟨nofun, List.nil_prefix, nofun⟩
  | cons taken answers ih =>
    have split := List.take_append_drop taken chunk.symbols
    rw [offer, ← offers.stream, ← split, List.append_assoc, split]
    apply Delivers.after
    by_cases isEmpty : chunk.symbols.drop taken = []
    · rw [if_neg (not_not_intro isEmpty), isEmpty, List.nil_append]
      cases isLast : chunk.isLast with
      | true =>
        rw [if_pos rfl, offers.last isLast]
        exact ⟨nofun, List.nil_prefix, fun _ => rfl⟩
      | false =>
        obtain ⟨next, behind, isNext, isStream, last, more⟩ :=
          produces.step state (offers.more isLast)
        rw [if_neg Bool.noConfusion, isNext]
        exact ih ⟨isStream, last, fun isMore => (more isMore).2⟩
    · rw [if_pos isEmpty]
      exact ih ⟨rfl, offers.last, offers.more⟩

/-- A consumer that takes something at each call gets all of the stream. -/
theorem Produces.offer_finished (produces : Produces fill valid pending) {chunk : Chunk Symbol}
    {state : State} {stream : List Symbol} (offers : Offers valid pending chunk state stream)
    (isFilled : chunk.isLast = false → chunk.symbols ≠ []) {answers : List Nat}
    (positive : ∀ taken ∈ answers, 0 < taken)
    (enough : stream.length < answers.length) :
    (offer fill answers chunk state).ending = .finished := by
  induction answers generalizing chunk state stream with
  | nil => cases enough
  | cons taken answers ih =>
    rw [List.forall_mem_cons] at positive
    rw [List.length_cons, ← offers.stream, List.length_append] at enough
    show (if chunk.symbols.drop taken ≠ [] then _ else _ : Delivery Symbol).ending = _
    by_cases isEmpty : chunk.symbols.drop taken = []
    · rw [if_neg (not_not_intro isEmpty)]
      cases isLast : chunk.isLast with
      | true => rfl
      | false =>
        obtain ⟨next, behind, isNext, isStream, last, more⟩ :=
          produces.step state (offers.more isLast)
        rw [if_neg Bool.noConfusion, isNext]
        have some := List.length_pos_of_ne_nil (isFilled isLast)
        exact ih ⟨isStream, last, fun isMore => (more isMore).2⟩
          (fun isMore => (more isMore).1) positive.2 (by omega)
    · rw [if_pos isEmpty]
      refine ih ⟨rfl, offers.last, offers.more⟩ (fun _ => isEmpty) positive.2 ?_
      have some := List.length_pos_of_ne_nil isEmpty
      rw [List.length_drop] at some
      rw [List.length_append, List.length_drop]
      have first := positive.1
      omega

theorem Produces.deliver_delivers (produces : Produces fill valid pending)
    {state : State} (isValid : valid state) (answers : List Nat) :
    Delivers (deliver fill answers state) (pending state) ∧ ((∀ taken ∈ answers, 0 < taken) →
        (pending state).length < answers.length →
        (deliver fill answers state).ending = .finished) := by
  obtain ⟨chunk, next, isNext, isStream, last, more⟩ := produces.step state isValid
  rw [deliver, isNext]
  have offers : Offers valid pending chunk next (pending state) :=
    ⟨isStream, last, fun isMore => (more isMore).2⟩
  exact ⟨produces.offer_delivers offers answers,
    produces.offer_finished offers fun isMore => (more isMore).1⟩

end Rule

end CWebFramework.Streaming
