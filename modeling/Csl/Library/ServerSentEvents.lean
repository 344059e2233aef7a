import Csl.Library.LineBreaks

/-! The event stream format, as a standard client reads it.

A field a line, a blank line to dispatch. Data without line breaks is received as it
was sent.
-/

set_option autoImplicit false

namespace ServerSentEvents
open LineBreaks

/-- `data: <data>` and a blank line. -/
def message (data : List Char) : List Char := "data: ".toList ++ data ++ "\n\n".toList

structure Event where
  type : List Char
  data : List Char
deriving DecidableEq, Repr

/-- Lines end with a carriage return, a newline or both. -/
def isLineEnd (c : Char) : Bool := c = '\n' || c = '\r'

def value : List Char → List Char
  | ' ' :: rest => rest
  | text => text

/-- A line's field and its value. A comment has no field's name. -/
def field (line : List Char) : List Char × List Char :=
  (line.takeWhile (· != ':'), value ((line.dropWhile (· != ':')).drop 1))

def events (type data : List Char) : List (List Char) → List Event
  | [] => []
  | line :: rest =>
    if line = [] then
      -- Every piece of data was buffered with a newline behind it.
      if data = [] then events [] [] rest else ⟨type, data.dropLast⟩ :: events [] [] rest
    else if (field line).1 = "data".toList then events type (data ++ (field line).2 ++ ['\n']) rest
    else if (field line).1 = "event".toList then events (field line).2 data rest
    else events type data rest

/-- A byte order mark at the start is no part of the stream. -/
def withoutMark : List Char → List Char
  | '\uFEFF' :: rest => rest
  | body => body

/-- What a client dispatches for a body that has ended. A line without its end is discarded. -/
def parse (body : List Char) : List Event := events [] [] (pieces isLineEnd (withoutMark body)).dropLast

/-- The data of the events that go to `onmessage`. -/
def messages (body : List Char) : List (List Char) :=
  ((parse body).filter (fun event => event.type = [] || event.type = "message".toList)).map Event.data

def OneLine (data : List Char) : Prop := ∀ c ∈ data, isLineEnd c = false

theorem pieces_message {data : List Char} (one : OneLine data) (rest : List Char) :
    pieces isLineEnd (message data ++ rest) = ("data: ".toList ++ data) :: [] :: pieces isLineEnd rest := by
  have plain : ∀ c ∈ "data: ".toList ++ data, isLineEnd c = false := by
    have label : "data: ".toList.all (fun c => !isLineEnd c) = true := by decide +kernel
    intro c member
    rcases List.mem_append.mp member with named | inside
    · exact (Bool.not_eq_true' _).mp (List.all_eq_true.mp label c named)
    · exact one c inside
  have last : ("data: ".toList ++ data).getLast? ≠ some '\r' := by
    intro same
    have free := plain '\r' (List.mem_of_getLast? same)
    cases free
  have split : message data ++ rest = ("data: ".toList ++ data) ++ '\n' :: ('\n' :: rest) :=
    List.append_assoc ("data: ".toList ++ data) "\n\n".toList rest
  have breaks : isLineEnd '\n' = true := rfl
  have returns : isLineEnd '\r' = true := rfl
  rw [split, pieces_append breaks last, pieces_plain returns plain, pieces_newline breaks]
  rfl

theorem field_message (data : List Char) : field ("data: ".toList ++ data) = ("data".toList, data) := rfl

theorem events_data (type data value : List Char) (rest : List (List Char)) :
    events type data (("data: ".toList ++ value) :: rest) = events type (data ++ value ++ ['\n']) rest := by
  have filled : "data: ".toList ++ value ≠ [] := by simp
  rw [events, if_neg filled, field_message]
  exact if_pos rfl

theorem events_blank (type : List Char) {data : List Char} (buffered : data ≠ []) (rest : List (List Char)) :
    events type data ([] :: rest) = ⟨type, data.dropLast⟩ :: events [] [] rest := by
  rw [events, if_pos rfl, if_neg buffered]

/-- A client receives what was sent, and then goes on with the rest. -/
theorem events_messages {sent : List (List Char)} (one : ∀ data ∈ sent, OneLine data) (rest : List Char) :
    events [] [] (pieces isLineEnd (sent.flatMap message ++ rest)).dropLast =
      sent.map (Event.mk []) ++ events [] [] (pieces isLineEnd rest).dropLast := by
  induction sent with
  | nil => rfl
  | cons data others ih =>
    have later := ih (fun d member => one d (List.mem_cons_of_mem data member))
    have some : pieces isLineEnd (others.flatMap message ++ rest) ≠ [] := pieces_ne_nil _
    have split := pieces_message (one data List.mem_cons_self) (others.flatMap message ++ rest)
    have buffered : [] ++ data ++ ['\n'] ≠ [] := by simp
    rw [List.flatMap_cons, List.append_assoc, split, List.dropLast_cons_of_ne_nil (List.cons_ne_nil _ _),
      List.dropLast_cons_of_ne_nil some, events_data, events_blank [] buffered, List.dropLast_concat, later]
    rfl

theorem messages_append {sent : List (List Char)} (one : ∀ data ∈ sent, OneLine data) (rest : List Char)
    (unmarked : withoutMark rest = rest) : messages (sent.flatMap message ++ rest) = sent ++ messages rest := by
  have same : withoutMark (sent.flatMap message ++ rest) = sent.flatMap message ++ rest := by
    cases sent with
    | nil => exact unmarked
    | cons => rfl
  have all : (sent.map (Event.mk [])).filter (fun event => event.type = [] || event.type = "message".toList) =
      sent.map (Event.mk []) := by
    apply List.filter_eq_self.mpr
    intro event member
    obtain ⟨data, -, same⟩ := List.mem_map.mp member
    rw [← same]
    rfl
  have data : (sent.map (Event.mk [])).map Event.data = sent := by
    rw [List.map_map]
    exact List.map_id _
  rw [messages, parse, same, events_messages one, List.filter_append, List.map_append, all, data, messages, parse,
    unmarked]

end ServerSentEvents
