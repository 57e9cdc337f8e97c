import SerialLink.Protocol

/-!
# Histories of a link

The history of a link is the trace of all that was done with it.  This module reads off a history the
bits that came from the peer (`Event.received`) and the items that they became (`Event.arrived`), the bits
that were shifted into the data register (`Event.shifted`), the packets with which the port has clocked
its own bits out (`Event.offered`), and all packets with bits in the order in which they were to be sent
(`Event.syncs`).  The log says nothing about them, so all of these depend on the deeds of a history only
(`filterMap_deeds`).
-/

namespace SerialLink.Event

/-! ### Deeds -/

/-- Whether an event is a line in the log. -/
def isNote : Event → Bool
  | .noted _ => true
  | _ => false

/-- The history without the log. -/
def deeds (history : List Event) : List Event := history.filter fun event => !event.isNote

@[simp] theorem deeds_nil : deeds [] = [] := rfl

@[simp] theorem deeds_append (a b : List Event) : deeds (a ++ b) = deeds a ++ deeds b :=
  List.filter_append a b

@[simp] theorem deeds_noted (notice : Notice) (history : List Event) :
    deeds (.noted notice :: history) = deeds history := rfl

/-- What passes the log over can be read off the deeds. -/
theorem filterMap_deeds {α : Type} (view : Event → Option α) (h : ∀ notice, view (.noted notice) = none)
    (history : List Event) : (deeds history).filterMap view = history.filterMap view := by
  induction history with
  | nil => rfl
  | cons event rest ih =>
    cases event with
    | noted notice =>
      rw [deeds_noted, List.filterMap_cons_none (h notice)]
      exact ih
    | _ =>
      rw [deeds, List.filter_cons_of_pos rfl, List.filterMap_cons, List.filterMap_cons]
      rw [deeds] at ih
      rw [ih]

/-! ### Bits -/

/-- The bits that came in packets that were handled. -/
def received (history : List Event) : List UInt8 :=
  history.filterMap fun
    | .handled packet _ => if packet.isSync then some (packet.b2 &&& 1) else none
    | _ => none

/-- What the bits that came were queued as. -/
def arrived (history : List Event) : List BitQueue.Item :=
  history.filterMap fun
    | .handled packet _ => if packet.isSync then some (Protocol.itemOf packet) else none
    | _ => none

/-- The bits that were shifted into the data register. -/
def shifted (history : List Event) : List UInt8 :=
  history.filterMap fun
    | .clockedIn bit => some bit
    | _ => none

/-- The packets with which the port has clocked out its bits. -/
def offered (history : List Event) : List Packet :=
  history.filterMap fun
    | .clockedOut packet => some packet
    | _ => none

/-- The packets with bits that were to be sent: those that the port has clocked out, and the answers to
bits of the peer. -/
def syncs (history : List Event) : List Packet :=
  history.filterMap fun
    | .clockedOut packet => some packet
    | .handled packet reply => if packet.isSync then reply else none
    | _ => none

/-- The packets with which the port has clocked out its bits, each with the number of the bit, counted from
one, if so many were shifted in before. -/
def offers : Nat → List Event → List (Nat × Packet)
  | _, [] => []
  | n, .clockedIn _ :: rest => offers (n + 1) rest
  | n, .clockedOut packet :: rest => (n + 1, packet) :: offers n rest
  | n, _ :: rest => offers n rest

variable (a b history : List Event)

@[simp] theorem received_append : received (a ++ b) = received a ++ received b :=
  List.filterMap_append

@[simp] theorem arrived_append : arrived (a ++ b) = arrived a ++ arrived b :=
  List.filterMap_append

@[simp] theorem shifted_append : shifted (a ++ b) = shifted a ++ shifted b :=
  List.filterMap_append

@[simp] theorem offered_append : offered (a ++ b) = offered a ++ offered b :=
  List.filterMap_append

@[simp] theorem syncs_append : syncs (a ++ b) = syncs a ++ syncs b := List.filterMap_append

@[simp] theorem packets_append : packets (a ++ b) = packets a ++ packets b := List.filterMap_append

@[simp] theorem interrupts_append : interrupts (a ++ b) = interrupts a + interrupts b :=
  List.count_append

@[simp] theorem received_deeds : received (deeds history) = received history :=
  filterMap_deeds _ (fun _ => rfl) history

@[simp] theorem arrived_deeds : arrived (deeds history) = arrived history :=
  filterMap_deeds _ (fun _ => rfl) history

@[simp] theorem shifted_deeds : shifted (deeds history) = shifted history :=
  filterMap_deeds _ (fun _ => rfl) history

@[simp] theorem offered_deeds : offered (deeds history) = offered history :=
  filterMap_deeds _ (fun _ => rfl) history

@[simp] theorem syncs_deeds : syncs (deeds history) = syncs history :=
  filterMap_deeds _ (fun _ => rfl) history

@[simp] theorem packets_deeds : packets (deeds history) = packets history :=
  filterMap_deeds _ (fun _ => rfl) history

@[simp] theorem interrupts_deeds : interrupts (deeds history) = interrupts history :=
  List.count_filter rfl

theorem offers_append (n : Nat) : offers n (a ++ b) = offers n a ++ offers (n + (shifted a).length) b := by
  induction a generalizing n with
  | nil => rfl
  | cons event rest ih =>
    cases event with
    | clockedIn bit =>
      -- Only a bit that is shifted in moves the count on, for the rest as for what follows it.
      show offers (n + 1) (rest ++ b) = offers (n + 1) rest ++ offers (n + ((shifted rest).length + 1)) b
      rw [ih, Nat.add_right_comm, Nat.add_assoc]
    | clockedOut packet => exact congrArg _ (ih n)
    | _ => exact ih n

theorem offers_deeds (n : Nat) : offers n (deeds history) = offers n history := by
  induction history generalizing n with
  | nil => rfl
  | cons event rest ih =>
    cases event with
    | clockedIn => exact ih (n + 1)
    | clockedOut packet => exact congrArg ((n + 1, packet) :: ·) (ih n)
    | _ => exact ih n

/-- The bits that came are those of the items that they were queued as. -/
theorem received_eq : received history = (arrived history).map fun item => item.data &&& 1 := by
  rw [received, arrived, List.map_filterMap]
  congr 1
  funext event
  cases event with
  | handled packet reply =>
    simp only
    split <;> rfl
  | _ => rfl

/-- Whether an event is the failure to send a packet. -/
def isRefusal : Event → Bool
  | .refused _ => true
  | _ => false

/-! ### Traffic -/

/-- Whether an event is the coming or going of a packet. -/
def isTraffic : Event → Bool
  | .sent _ | .refused _ | .handled .. => true
  | _ => false

variable {history}

theorem shifted_of_traffic (h : ∀ event ∈ history, event.isTraffic) : shifted history = [] := by
  refine List.filterMap_eq_nil_iff.mpr fun event mem => ?_
  have traffic := h event mem
  cases event <;> first | rfl | cases traffic

theorem offered_of_traffic (h : ∀ event ∈ history, event.isTraffic) : offered history = [] := by
  refine List.filterMap_eq_nil_iff.mpr fun event mem => ?_
  have traffic := h event mem
  cases event <;> first | rfl | cases traffic

theorem offers_of_traffic (n : Nat) (h : ∀ event ∈ history, event.isTraffic) : offers n history = [] := by
  induction history with
  | nil => rfl
  | cons event rest ih =>
    have traffic := h event (List.mem_cons_self ..)
    have rest := ih fun event mem => h event (List.mem_cons_of_mem _ mem)
    cases event with
    | sent | refused | handled => exact rest
    | _ => cases traffic

theorem interrupts_of_traffic (h : ∀ event ∈ history, event.isTraffic) : interrupts history = 0 :=
  List.count_eq_zero.mpr fun mem => nomatch h _ mem

end SerialLink.Event
