import Mathlib.Data.List.Basic

/-!
# Hubs

A hub hands payloads to clients that come and go, to all of them or to one. The state keeps what each
client has received; a client is the number of those before it, and `none` is one that has left.

* `Each h P` : what every connected client has received meets `P`; one lemma for each operation.
* `lastOf f received` : the last payload of a kind.
-/

structure Hub (α : Type*) where
  clients : List (Option (List α))
  deriving DecidableEq

namespace Hub

variable {α β : Type*} {P Q : List α → Prop}

def empty : Hub α := ⟨[]⟩

/-- The client that `addClient` adds. -/
def nextClient (h : Hub α) : Nat := h.clients.length

def addClient (h : Hub α) : Hub α := ⟨h.clients ++ [some []]⟩

def removeClient (h : Hub α) (c : Nat) : Hub α := ⟨h.clients.modify c fun _ => none⟩

/-- Writing to the clients does not fail. -/
def broadcast (h : Hub α) (x : α) : Hub α := ⟨h.clients.map (Option.map (· ++ [x]))⟩

def sendToClient (h : Hub α) (c : Nat) (x : α) : Hub α :=
  ⟨h.clients.modify c (Option.map (· ++ [x]))⟩

/-- What every connected client has received meets `P`. -/
def Each (h : Hub α) (P : List α → Prop) : Prop := ∀ received, some received ∈ h.clients → P received

theorem Each.mono {h : Hub α} (hP : h.Each P) (hPQ : ∀ l, P l → Q l) : h.Each Q :=
  fun received hr => hPQ received (hP received hr)

theorem each_empty : (empty : Hub α).Each P := fun _ hr => by cases hr

theorem each_broadcast {h : Hub α} {x : α} :
    (h.broadcast x).Each P ↔ h.Each (fun received => P (received ++ [x])) := by
  constructor
  · intro hP received hr
    exact hP _ (List.mem_map.mpr ⟨_, hr, rfl⟩)
  · intro hP received hr
    obtain ⟨before, hb, heq⟩ := List.mem_map.mp hr
    obtain ⟨l, rfl, rfl⟩ := Option.map_eq_some_iff.mp heq
    exact hP l hb

theorem Each.removeClient {h : Hub α} (hP : h.Each P) (c : Nat) : (h.removeClient c).Each P := by
  intro received hr
  rw [Hub.removeClient, List.mem_iff_getElem?] at hr
  obtain ⟨i, hi⟩ := hr
  rw [List.getElem?_modify] at hi
  obtain ⟨before, hb, heq⟩ := Option.map_eq_some_iff.mp hi
  split_ifs at heq
  rw [heq] at hb
  exact hP received (List.mem_of_getElem? hb)

theorem modify_length_append (l : List α) (a : α) (f : α → α) :
    (l ++ [a]).modify l.length f = l ++ [f a] := by
  induction l with
  | nil => rfl
  | cons b l ih => rw [List.cons_append, List.length_cons, List.modify_succ_cons, ih]; rfl

/-- What a new client is sent goes to it alone. -/
theorem sendToClient_new (h : Hub α) (received : List α) (x : α) :
    (Hub.mk (h.clients ++ [some received])).sendToClient h.nextClient x =
      ⟨h.clients ++ [some (received ++ [x])]⟩ := by
  rw [sendToClient, nextClient, modify_length_append]
  rfl

theorem each_append {h : Hub α} {received : List α} :
    (Hub.mk (h.clients ++ [some received])).Each P ↔ h.Each P ∧ P received := by
  simp only [Each, List.mem_append, List.mem_singleton, Option.some.injEq]
  constructor
  · exact fun hP => ⟨fun l hl => hP l (Or.inl hl), hP received (Or.inr rfl)⟩
  · rintro ⟨hP, hr⟩ l (hl | rfl)
    · exact hP l hl
    · exact hr

/-! ## The last payload of a kind -/

def lastOf (f : α → Option β) (received : List α) : Option β := (received.filterMap f).getLast?

@[simp] theorem lastOf_append_some {f : α → Option β} {x : α} {b : β} (hx : f x = some b)
    (received : List α) : lastOf f (received ++ [x]) = some b := by
  simp [lastOf, hx]

@[simp] theorem lastOf_append_none {f : α → Option β} {x : α} (hx : f x = none)
    (received : List α) : lastOf f (received ++ [x]) = lastOf f received := by
  simp [lastOf, hx]

end Hub
