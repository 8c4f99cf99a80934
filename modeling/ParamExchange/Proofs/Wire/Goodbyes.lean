/-
Goodbyes on a stream. A reader that waits for a goodbye passes over every other frame that is a message, and stops at
the first frame that says goodbye, at the first one that is none, or where the stream ends. As each frame makes the
stream shorter, it always comes to one of these ends, and never to two of them.
-/
import ParamExchange.Proofs.Wire.Frames

namespace ParamExchange.Wire

/-! ## Up to a goodbye -/

/-- A whole frame of a message that does not say goodbye stands in front of the rest. -/
def Passes (stream rest : List UInt8) : Prop := ∃ m, Opens stream m rest ∧ m ≠ .control .disconnect

/-- `SaysGoodbye stream rest`: the first frame of a stream that is no other message says goodbye. -/
def SaysGoodbye (stream rest : List UInt8) : Prop :=
  ∃ left, Relation.ReflTransGen Passes stream left ∧ Opens left (.control .disconnect) rest

/-- `BreaksOff stream e`: a stream ends, or is malformed, before it says goodbye. -/
def BreaksOff (stream : List UInt8) (e : LinkError) : Prop :=
  ∃ left, Relation.ReflTransGen Passes stream left ∧ Breaks left e

/-- Messages of every kind but a goodbye are passed over. -/
theorem passes_frames {messages : List Message}
    (h : ∀ m ∈ messages, m.body.length ≤ frameLimit ∧ m ≠ .control .disconnect) (left : List UInt8) :
    Relation.ReflTransGen Passes (messages.flatMap Message.frame ++ left) left := by
  induction messages with
  | nil => exact .refl
  | cons m rest ih =>
    obtain ⟨hfit, hm⟩ := h m List.mem_cons_self
    rw [List.flatMap_cons, List.append_assoc]
    refine .head ⟨m, opens_iff.2 (receive_message hfit _), hm⟩ (ih fun other hother => ?_)
    exact h other (List.mem_cons_of_mem _ hother)

/-- A stream with a goodbye after such messages says goodbye. -/
theorem saysGoodbye_frames {messages : List Message}
    (h : ∀ m ∈ messages, m.body.length ≤ frameLimit ∧ m ≠ .control .disconnect) (rest : List UInt8) :
    SaysGoodbye (messages.flatMap Message.frame ++ ((Message.control .disconnect).frame ++ rest)) rest :=
  ⟨_, passes_frames h _, opens_iff.2 (receive_message (by decide) rest)⟩

/-- A stream with no message after them breaks off. -/
theorem breaksOff_frames {messages : List Message} {left : List UInt8} {e : LinkError}
    (h : ∀ m ∈ messages, m.body.length ≤ frameLimit ∧ m ≠ .control .disconnect) (hbreaks : Breaks left e) :
    BreaksOff (messages.flatMap Message.frame ++ left) e :=
  ⟨left, passes_frames h left, hbreaks⟩

theorem drain_of_error {stream rest : List UInt8} {e : LinkError} (h : receive stream = (.error e, rest)) :
    drain stream = (.error e, rest) := by
  rw [drain]
  split <;> rename_i hreceive <;> rw [h] at hreceive <;> cases hreceive
  rfl

theorem drain_goodbye {stream rest : List UInt8} (h : Opens stream (.control .disconnect) rest) :
    drain stream = (.ok (), rest) := by
  rw [drain]
  split <;> rename_i hreceive <;> rw [h.receive] at hreceive <;> cases hreceive
  exact if_pos rfl

theorem drain_passes {stream rest : List UInt8} (h : Passes stream rest) : drain stream = drain rest := by
  obtain ⟨m, hopens, hm⟩ := h
  rw [drain]
  split <;> rename_i hreceive <;> rw [hopens.receive] at hreceive <;> cases hreceive
  exact if_neg hm

theorem drain_passes_all {stream left : List UInt8} (h : Relation.ReflTransGen Passes stream left) :
    drain stream = drain left := by
  induction h with
  | refl => rfl
  | tail _ hpasses ih => rw [ih, drain_passes hpasses]

theorem SaysGoodbye.drain {stream rest : List UInt8} (h : SaysGoodbye stream rest) : drain stream = (.ok (), rest) := by
  obtain ⟨left, hpasses, hopens⟩ := h
  rw [drain_passes_all hpasses, drain_goodbye hopens]

theorem BreaksOff.drain {stream : List UInt8} {e : LinkError} (h : BreaksOff stream e) :
    (drain stream).1 = .error e := by
  obtain ⟨left, hpasses, hbreaks⟩ := h
  rw [drain_passes_all hpasses, drain_of_error (Prod.ext hbreaks.receive rfl)]

/-- A stream breaks off in one way. -/
theorem BreaksOff.unique {stream : List UInt8} {e other : LinkError} (h : BreaksOff stream e)
    (hother : BreaksOff stream other) : e = other := by
  cases h.drain.symm.trans hother.drain
  rfl

/-- A stream says goodbye or breaks off. -/
theorem saysGoodbye_or_breaksOff (stream : List UInt8) :
    (∃ rest, SaysGoodbye stream rest) ∨ ∃ e, BreaksOff stream e := by
  induction hn : stream.length using Nat.strongRecOn generalizing stream with
  | ind n ih =>
    subst hn
    obtain ⟨m, rest, hopens⟩ | ⟨e, hbreaks⟩ := opens_or_breaks stream
    · by_cases hm : m = .control .disconnect
      · exact .inl ⟨rest, stream, .refl, hm ▸ hopens⟩
      · -- a frame that is passed over makes the stream shorter
        have hpasses : Passes stream rest := ⟨m, hopens, hm⟩
        obtain ⟨after, left, hleft, hend⟩ | ⟨e, left, hleft, hend⟩ :=
          ih rest.length (length_lt_of_receive hopens.receive) rest rfl
        · exact .inl ⟨after, left, .head hpasses hleft, hend⟩
        · exact .inr ⟨e, left, .head hpasses hleft, hend⟩
    · exact .inr ⟨e, stream, .refl, hbreaks⟩

/-- No stream does both. -/
theorem BreaksOff.not_saysGoodbye {stream rest : List UInt8} {e : LinkError} (h : BreaksOff stream e) :
    ¬ SaysGoodbye stream rest := by
  intro hgoodbye
  have hdrain := h.drain
  rw [hgoodbye.drain] at hdrain
  cases hdrain

end ParamExchange.Wire
