import Mathlib.Data.List.Basic

/-!
# Services and the histories they answer

A service answers one call at a time and keeps a state in between. Its history is the list of
calls with their answers. Between two calls the state may be rearranged, as a hash map that is
rebuilt in another order. What a service promises is a relation between its history and the next
answer, and it is proved by an invariant that ties the state to the history.
-/

namespace Common

variable {S C A : Type*}

/-- The calls a service has answered from a start state, with the answers, and the state they lead
to. -/
inductive Serves (call : S → C → A × S) (rearranged : S → S → Prop) (start : S) :
    List (C × A) → S → Prop
  | start : Serves call rearranged start [] start
  | call {history : List (C × A)} {s : S} (c : C) (h : Serves call rearranged start history s) :
      Serves call rearranged start (history ++ [(c, (call s c).1)]) (call s c).2
  | rearrange {history : List (C × A)} {s s' : S} (h : Serves call rearranged start history s)
      (hsame : rearranged s s') : Serves call rearranged start history s'

variable {call : S → C → A × S} {rearranged : S → S → Prop} {start s s' : S}
  {history : List (C × A)}

/-- A relation between history and state that holds initially and survives calls and
rearrangements holds after every history whose beginnings all meet a condition. -/
theorem Serves.invariant (guard : List (C × A) → Prop) (Inv : List (C × A) → S → Prop)
    (h : Serves call rearranged start history s) (hguard : guard history)
    (hbefore : ∀ earlier event, guard (earlier ++ [event]) → guard earlier)
    (hstart : Inv [] start)
    (hcall : ∀ earlier s c, Serves call rearranged start earlier s →
      guard (earlier ++ [(c, (call s c).1)]) → Inv earlier s →
      Inv (earlier ++ [(c, (call s c).1)]) (call s c).2)
    (hsame : ∀ earlier s s', rearranged s s' → Inv earlier s → Inv earlier s') :
    Inv history s := by
  induction h with
  | start => exact hstart
  | call c hserved ih => exact hcall _ _ _ hserved hguard (ih (hbefore _ _ hguard))
  | rearrange _ hre ih => exact hsame _ _ _ hre (ih hguard)

/-- A relation that needs no condition holds after every history. -/
theorem Serves.always (Inv : List (C × A) → S → Prop)
    (h : Serves call rearranged start history s) (hstart : Inv [] start)
    (hcall : ∀ earlier s c, Inv earlier s → Inv (earlier ++ [(c, (call s c).1)]) (call s c).2)
    (hsame : ∀ earlier s s', rearranged s s' → Inv earlier s → Inv earlier s') :
    Inv history s :=
  h.invariant (fun _ => True) Inv trivial (fun _ _ _ => trivial) hstart
    (fun earlier s c _ _ => hcall earlier s c) hsame

/-- The condition may be one on the calls alone. -/
theorem Serves.invariant_calls (guard : List C → Prop) (Inv : List (C × A) → S → Prop)
    (h : Serves call rearranged start history s) (hguard : guard (history.map Prod.fst))
    (hbefore : ∀ calls c, guard (calls ++ [c]) → guard calls)
    (hstart : Inv [] start)
    (hcall : ∀ earlier s c, Serves call rearranged start earlier s →
      guard (earlier.map Prod.fst ++ [c]) → Inv earlier s →
      Inv (earlier ++ [(c, (call s c).1)]) (call s c).2)
    (hsame : ∀ earlier s s', rearranged s s' → Inv earlier s → Inv earlier s') :
    Inv history s := by
  apply h.invariant (fun history => guard (history.map Prod.fst)) Inv hguard
  · intro earlier event hlonger
    rw [List.map_append] at hlonger
    exact hbefore _ _ hlonger
  · exact hstart
  · intro earlier s c hserved hlonger
    rw [List.map_append] at hlonger
    exact hcall earlier s c hserved hlonger
  · exact hsame

/-- A service that goes on from where a history led has answered both histories in turn. -/
theorem Serves.append {more : List (C × A)} (h : Serves call rearranged start history s)
    (hmore : Serves call rearranged s more s') :
    Serves call rearranged start (history ++ more) s' := by
  induction hmore with
  | start => rwa [List.append_nil]
  | call c _ ih =>
    rw [← List.append_assoc]
    exact ih.call c
  | rearrange _ hre ih => exact ih.rearrange hre

/-- Make a list of calls one after the other, recording the answers. -/
def serveAll (call : S → C → A × S) : S → List C → List (C × A) × S
  | s, [] => ([], s)
  | s, c :: rest =>
    let later := serveAll call (call s c).2 rest
    ((c, (call s c).1) :: later.1, later.2)

/-- The calls made one after the other have been answered. -/
theorem Serves.serveAll (calls : List C) (h : Serves call rearranged start history s) :
    Serves call rearranged start (history ++ (serveAll call s calls).1) (serveAll call s calls).2 := by
  induction calls generalizing history s with
  | nil =>
    rw [Common.serveAll, List.append_nil]
    exact h
  | cons c rest ih =>
    have hrest := ih (h.call c)
    rwa [List.append_assoc] at hrest

end Common
