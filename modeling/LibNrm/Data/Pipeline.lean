import Mathlib.Data.List.Forall2

namespace LibNrm.Data

/-! Requests and replies in a pipeline.

Requests are asked, answered and collected in one order.  `Matched` relates the
requests that still wait for their reply with the replies that are there and the
requests that have none yet; each of the three operations keeps it.
-/

variable {Request Reply : Type} {answers : Request → Reply → Prop}

def Matched (answers : Request → Reply → Prop) (waiting : List Request) (replies : List Reply)
    (requests : List Request) : Prop :=
  ∃ answered, waiting = answered ++ requests ∧ List.Forall₂ answers answered replies

variable {waiting requests : List Request} {replies : List Reply}

theorem Matched.nil : Matched answers [] [] [] := ⟨[], rfl, .nil⟩

theorem Matched.imp {weaker : Request → Reply → Prop} (matched : Matched answers waiting replies requests)
    (weaken : ∀ request reply, answers request reply → weaker request reply) :
    Matched weaker waiting replies requests := by
  obtain ⟨answered, split, pairs⟩ := matched
  exact ⟨answered, split, List.Forall₂.imp weaken pairs⟩

theorem Matched.ask (matched : Matched answers waiting replies requests) (request : Request) :
    Matched answers (waiting ++ [request]) replies (requests ++ [request]) := by
  obtain ⟨answered, rfl, pairs⟩ := matched
  exact ⟨answered, List.append_assoc _ _ _, pairs⟩

theorem Matched.answer {request : Request} {reply : Reply}
    (matched : Matched answers waiting replies (request :: requests))
    (answered : answers request reply) : Matched answers waiting (replies ++ [reply]) requests := by
  obtain ⟨before, rfl, pairs⟩ := matched
  exact ⟨before ++ [request], by simp, List.rel_append pairs (.cons answered .nil)⟩

theorem Matched.collect {reply : Reply}
    (matched : Matched answers waiting (reply :: replies) requests) :
    ∃ request rest, waiting = request :: rest ∧ answers request reply ∧
      Matched answers rest replies requests := by
  obtain ⟨answered, rfl, pairs⟩ := matched
  cases pairs with
  | cons head tail => exact ⟨_, _, rfl, head, _, rfl, tail⟩

end LibNrm.Data
