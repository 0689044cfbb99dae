import OpcuaLight.Lib.Machine
import OpcuaLight.Lib.Utf8

/-!
# Event streams

The format of server-sent events, and the reading of it by an event source: lines end at LF, CR or CRLF; a line is a field
with its value or, from a colon on, a comment; an empty line dispatches the event whose data has been collected.

* `events_stream` : the events and comments that are written one after the other are dispatched as they were written.
* `events_prefix` : what has been dispatched when a part of the stream has been read.
-/

namespace EventStream

def ascii (s : String) : List UInt8 := Utf8.encode s.toList

def lf : UInt8 := 10
def cr : UInt8 := 13
def colon : UInt8 := 58
def space : UInt8 := 32

/-- An event source that reads a stream. -/
structure Source where
  /-- The line that has not ended. -/
  line : List UInt8
  afterCr : Bool
  eventType : List UInt8
  data : List UInt8
  /-- The types and the data of the events dispatched. -/
  events : List (List UInt8 × List UInt8)
  deriving DecidableEq

namespace Source

/-- The fields `id` and `retry` are about reconnecting; others are ignored. -/
def processField (p : Source) (field value : List UInt8) : Source :=
  if field = ascii "event" then { p with eventType := value }
  else if field = ascii "data" then { p with data := p.data ++ value ++ [lf] }
  else p

def dispatch (p : Source) : Source :=
  { p with
    events := if p.data = [] then p.events else p.events ++ [(p.eventType, p.data.dropLast)]
    eventType := []
    data := [] }

/-- One space behind the colon does not belong to the value. -/
def fieldValue : List UInt8 → List UInt8
  | b :: value => if b = space then value else b :: value
  | [] => []

def processLine (p : Source) (line : List UInt8) : Source :=
  if line = [] then p.dispatch
  else if line.head? = some colon then p
  else match line.dropWhile (· ≠ colon) with
    | [] => p.processField line []
    | _ :: value => p.processField (line.takeWhile (· ≠ colon)) (fieldValue value)

def endLine (p : Source) (afterCr : Bool) : Source := processLine { p with line := [], afterCr } p.line

def step (p : Source) (b : UInt8) : Source :=
  if b = lf then if p.afterCr then { p with afterCr := false } else p.endLine false
  else if b = cr then p.endLine true
  else { p with line := p.line ++ [b], afterCr := false }

/-- Between two events. -/
def between (events : List (List UInt8 × List UInt8)) : Source := ⟨[], false, [], [], events⟩

end Source

open Source

/-- The events that an event source has dispatched when it has read the bytes. -/
def events (bytes : List UInt8) : List (List UInt8 × List UInt8) :=
  (Machine.run Source.step (.between []) bytes).events

/-! ## What is written -/

inductive Item where
  | event (type data : List UInt8)
  | comment (text : List UInt8)

def Item.bytes : Item → List UInt8
  | .event type data => (ascii "event: " ++ type) ++ [lf] ++ (ascii "data: " ++ data) ++ [lf] ++ [lf]
  | .comment text => (colon :: text) ++ [lf] ++ [lf]

def Item.events : Item → List (List UInt8 × List UInt8)
  | .event type data => [(type, data)]
  | .comment _ => []

def stream (items : List Item) : List UInt8 := items.flatMap Item.bytes

/-- Without the end of a line in it. -/
def Inline (text : List UInt8) : Prop := lf ∉ text ∧ cr ∉ text

instance (text : List UInt8) : Decidable (Inline text) := inferInstanceAs (Decidable (_ ∧ _))

def Item.Inline : Item → Prop
  | .event type data => EventStream.Inline type ∧ EventStream.Inline data
  | .comment text => EventStream.Inline text

/-! ## Reading it -/

theorem Inline.append {s t : List UInt8} (hs : Inline s) (ht : Inline t) : Inline (s ++ t) :=
  ⟨fun h => (List.mem_append.mp h).elim hs.1 ht.1, fun h => (List.mem_append.mp h).elim hs.2 ht.2⟩

theorem run_inline {text : List UInt8} (h : Inline text) {p : Source} (hp : p.afterCr = false) :
    Machine.run step p text = { p with line := p.line ++ text } := by
  induction text generalizing p with
  | nil => rw [Machine.run_nil, List.append_nil]
  | cons b text ih =>
      have hlf : b ≠ lf := fun he => h.1 (he ▸ List.mem_cons_self)
      have hcr : b ≠ cr := fun he => h.2 (he ▸ List.mem_cons_self)
      have hstep : step p b = { p with line := p.line ++ [b], afterCr := false } := by
        rw [step, if_neg hlf, if_neg hcr]
      have htext : Inline text := ⟨fun hb => h.1 (List.mem_cons_of_mem b hb), fun hb => h.2 (List.mem_cons_of_mem b hb)⟩
      rw [Machine.run_cons, hstep, ih htext rfl, hp, List.append_assoc]
      rfl

theorem run_line {line : List UInt8} (h : Inline line) {p : Source} (hline : p.line = []) (hp : p.afterCr = false) :
    Machine.run step p (line ++ [lf]) = p.processLine line := by
  rw [Machine.run_append, run_inline h hp, Machine.run_cons, Machine.run_nil, step, if_pos rfl]
  show (if p.afterCr = true then _ else _) = _
  rw [hp, if_neg Bool.false_ne_true, endLine, hline, List.nil_append, ← hline, ← hp]

theorem processLine_event (p : Source) (type : List UInt8) :
    p.processLine (ascii "event: " ++ type) = { p with eventType := type } := rfl

theorem processLine_data (p : Source) (data : List UInt8) :
    p.processLine (ascii "data: " ++ data) = { p with data := p.data ++ data ++ [lf] } := rfl

/-- An empty line. -/
theorem run_blank {p : Source} (hline : p.line = []) (hp : p.afterCr = false) :
    Machine.run step p [lf] = p.dispatch := by
  have hempty : Inline [] := ⟨List.not_mem_nil, List.not_mem_nil⟩
  exact run_line hempty hline hp

theorem run_item {item : Item} (h : item.Inline) (events : List (List UInt8 × List UInt8)) :
    Machine.run step (.between events) item.bytes = .between (events ++ item.events) := by
  cases item with
  | event type data =>
      obtain ⟨htype, hdata⟩ := h
      have hevent : Inline (ascii "event: ") := by decide
      have hdatum : Inline (ascii "data: ") := by decide
      rw [Item.bytes, Machine.run_append, List.append_assoc _ _ [lf], Machine.run_append,
        run_line (hevent.append htype) rfl rfl, processLine_event, run_line (hdatum.append hdata) rfl rfl,
        processLine_data, run_blank rfl rfl, dispatch]
      show Source.mk [] false [] [] (if data ++ [lf] = [] then _ else _) = _
      rw [if_neg (List.append_ne_nil_of_right_ne_nil _ (List.cons_ne_nil _ _))]
      show Source.mk [] false [] [] (events ++ [(type, (data ++ [lf]).dropLast)]) = _
      rw [List.dropLast_concat]
      rfl
  | comment text =>
      have hcolon : Inline [colon] := by decide
      have hline : Machine.run step (.between events) ([colon] ++ text ++ [lf]) = .between events :=
        run_line (hcolon.append h) rfl rfl
      rw [List.singleton_append] at hline
      rw [Item.bytes, Machine.run_append, hline, run_blank rfl rfl, Item.events, List.append_nil]
      rfl

theorem run_items {items : List Item} (h : ∀ item ∈ items, item.Inline) (events : List (List UInt8 × List UInt8)) :
    Machine.run step (.between events) (stream items) = .between (events ++ items.flatMap Item.events) := by
  induction items generalizing events with
  | nil => rw [List.flatMap_nil, List.append_nil]; rfl
  | cons item items ih =>
      obtain ⟨hitem, hitems⟩ := List.forall_mem_cons.mp h
      rw [stream, List.flatMap_cons, Machine.run_append, run_item hitem, List.flatMap_cons, ← List.append_assoc]
      exact ih hitems _

/-- **The events come as they were written.** -/
theorem events_stream {items : List Item} (h : ∀ item ∈ items, item.Inline) :
    events (stream items) = items.flatMap Item.events := by
  rw [events, run_items h, List.nil_append]
  rfl

theorem events_step (p : Source) (b : UInt8) : p.events <+: (p.step b).events := by
  have hfield : ∀ (p : Source) field value, (p.processField field value).events = p.events := by
    intro p field value
    rw [processField]
    split_ifs <;> rfl
  have hline : ∀ (p : Source) line, p.events <+: (p.processLine line).events := by
    intro p line
    rw [processLine]
    split_ifs
    · rw [dispatch]
      dsimp only
      split_ifs
      · exact List.prefix_rfl
      · exact List.prefix_append _ _
    · exact List.prefix_rfl
    · split <;> exact (hfield p _ _).symm ▸ List.prefix_rfl
  rw [step]
  split_ifs
  · exact List.prefix_rfl
  · exact hline { p with line := [], afterCr := false } p.line
  · exact hline { p with line := [], afterCr := true } p.line
  · exact List.prefix_rfl

/-- What has been dispatched stays. -/
theorem events_prefix (s t : List UInt8) : events s <+: events (s ++ t) := by
  rw [events, events, Machine.run_append]
  exact Machine.run_related (R := fun p p' : Source => p.events <+: p'.events) List.prefix_rfl List.IsPrefix.trans
    fun p b _ _ => events_step p b

end EventStream
