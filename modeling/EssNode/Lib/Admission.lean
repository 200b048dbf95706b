import Mathlib.Data.List.Induction

/-!
# Machines that Admit or Refuse

A machine keeps a state, takes one call after the other and answers each. Some
answers admit the call. Rate limiters and replay caches are such machines: what they
answer depends on what they admitted before, and their states are summaries of that
history.

A statement about such a machine is therefore one about its state and the list of
calls it has admitted so far, and it is proved from one call to the next
(`run_induction`). Calls are added at the end of a run, so lemmas are about
`calls ++ [c]`.
-/

namespace EssNode

open List

namespace Admission

/-- How a call changes the state, what it is answered, and which answers admit it. -/
structure Machine (S C R : Type*) where
  handle : S → C → S × R
  admits : R → Bool

namespace Machine

variable {S C R : Type*} (m : Machine S C R) (test : C → Bool) (s : S) (calls : List C) (c : C)

/-- The state after a run of calls. -/
def after (s : S) (calls : List C) : S := calls.foldl (fun s c => (m.handle s c).1) s

/-- The calls of a run, each with its answer. -/
def replies (s : S) : List C → List (C × R)
  | [] => []
  | c :: calls => (c, (m.handle s c).2) :: replies (m.handle s c).1 calls

/-- The calls of a run that were admitted. -/
def admitted (s : S) (calls : List C) : List C :=
  ((m.replies s calls).filter fun reply => m.admits reply.2).map Prod.fst

/-- The calls of a run that pass a test, each with its answer. -/
def repliesWhere (test : C → Bool) (s : S) (calls : List C) : List (C × R) :=
  (m.replies s calls).filter fun reply => test reply.1

/-- Whether a call is admitted in a state. -/
def Admits (s : S) (c : C) : Prop := m.admits (m.handle s c).2 = true

instance (s : S) (c : C) : Decidable (m.Admits s c) := inferInstanceAs (Decidable (_ = _))

theorem after_nil : m.after s [] = s := rfl

theorem after_concat : m.after s (calls ++ [c]) = (m.handle (m.after s calls) c).1 := by
  unfold after
  rw [foldl_append]
  rfl

theorem replies_concat :
    m.replies s (calls ++ [c]) = m.replies s calls ++ [(c, (m.handle (m.after s calls) c).2)] := by
  induction calls generalizing s with
  | nil => rfl
  | cons c' calls ih =>
    rw [cons_append, replies, replies, ih, cons_append]
    rfl

theorem admitted_concat :
    m.admitted s (calls ++ [c])
      = m.admitted s calls ++ if m.Admits (m.after s calls) c then [c] else [] := by
  unfold admitted
  rw [replies_concat, filter_append, map_append, filter_cons, filter_nil]
  by_cases h : m.Admits (m.after s calls) c
  · rw [if_pos h, if_pos (show m.admits (m.handle (m.after s calls) c).2 = true from h)]
    rfl
  · rw [if_neg h, if_neg (show ¬ m.admits (m.handle (m.after s calls) c).2 = true from h)]
    rfl

theorem repliesWhere_concat :
    m.repliesWhere test s (calls ++ [c])
      = m.repliesWhere test s calls
        ++ if test c = true then [(c, (m.handle (m.after s calls) c).2)] else [] := by
  unfold repliesWhere
  rw [replies_concat, filter_append, filter_cons, filter_nil]

theorem filter_admitted :
    (m.admitted s calls).filter test
      = ((m.repliesWhere test s calls).filter fun reply => m.admits reply.2).map Prod.fst := by
  unfold admitted repliesWhere
  rw [filter_map, filter_filter, filter_filter]
  refine congrArg (map Prod.fst) (filter_congr fun reply _ => ?_)
  rw [Function.comp_apply, Bool.and_comm]

/-- The induction over a run: what holds of the first state and no history, and is kept
    by every call of the run, holds of the state and the history at its end. -/
theorem run_induction {P : List C → S → List C → Prop} {s : S} (calls : List C)
    (hinit : P [] s [])
    (hstep : ∀ before c, before ++ [c] <+: calls →
      P before (m.after s before) (m.admitted s before) →
        P (before ++ [c]) (m.handle (m.after s before) c).1
          (m.admitted s before ++ if m.Admits (m.after s before) c then [c] else [])) :
    P calls (m.after s calls) (m.admitted s calls) := by
  induction calls using reverseRecOn with
  | nil => exact hinit
  | append_singleton calls c ih =>
    rw [after_concat, admitted_concat]
    refine hstep calls c (prefix_refl _) (ih fun before c' hinitial => ?_)
    exact hstep before c' (hinitial.trans (prefix_append calls [c]))

end Machine

end Admission

end EssNode
