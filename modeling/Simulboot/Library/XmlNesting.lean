import Simulboot.Library.Xml

/-!
# Nesting of events

A reader that checks the names of end tags delivers events that nest: an end tag
ends the innermost open element. Elements may be left open where the input ends.
-/

set_option autoImplicit false

namespace Library.Xml

/-- The elements left open after some events, innermost first, or nothing when
an end tag does not match. -/
def nesting : List Str → List Event → Option (List Str)
  | opened, [] => some opened
  | opened, .start e :: rest => nesting (e.name :: opened) rest
  | opened, .close name :: rest =>
      match opened with
      | innermost :: outer => if innermost = name then nesting outer rest else none
      | [] => none
  | opened, _ :: rest => nesting opened rest

/-- The documented check of end tags: one that does not end the innermost open
element is an error and no event. -/
structure ChecksEnds (xml : QuickXml) : Prop where
  nested : ∀ text, (nesting [] (xml.read text).events).isSome = true

/-- The events up to the end tag of an element, read from its inside at some
depth, or nothing when the input ends first. -/
def content : Nat → List Event → Option (List Event)
  | _, [] => none
  | depth, .start e :: rest => (content (depth + 1) rest).map (.start e :: ·)
  | 0, .close _ :: _ => some []
  | depth + 1, .close name :: rest => (content depth rest).map (.close name :: ·)
  | depth, .empty e :: rest => (content depth rest).map (.empty e :: ·)
  | depth, .text raw :: rest => (content depth rest).map (.text raw :: ·)
  | depth, .other :: rest => (content depth rest).map (.other :: ·)

def Event.tag : Event → Option BytesStart
  | .start e | .empty e => some e
  | .text _ | .close _ | .other => none

def Event.begins : Event → Option Str
  | .start e => some e.name
  | .empty _ | .text _ | .close _ | .other => none

def Event.ends : Event → Option Str
  | .close name => some name
  | .start _ | .empty _ | .text _ | .other => none

/-! ## Lemmas -/

theorem nesting_append (opened : List Str) (left right : List Event) :
    nesting opened (left ++ right) =
      (nesting opened left).bind fun between => nesting between right := by
  induction left generalizing opened with
  | nil => rfl
  | cons event rest ih =>
      cases event with
      | start e => exact ih (e.name :: opened)
      | empty e => exact ih opened
      | text raw => exact ih opened
      | other => exact ih opened
      | close name =>
          cases opened with
          | nil => rfl
          | cons innermost outer =>
              by_cases same : innermost = name
              · simpa [nesting, same] using ih outer
              · simp [nesting, same]

theorem nesting_under (opened outer : List Str) {left : List Str} {events : List Event}
    (nested : nesting opened events = some left) :
    nesting (opened ++ outer) events = some (left ++ outer) := by
  induction events generalizing opened with
  | nil =>
      obtain rfl := Option.some.inj nested
      rfl
  | cons event rest ih =>
      cases event with
      | start e => exact ih (e.name :: opened) nested
      | empty e => exact ih opened nested
      | text raw => exact ih opened nested
      | other => exact ih opened nested
      | close name =>
          cases opened with
          | nil => exact absurd nested (by simp [nesting])
          | cons innermost others =>
              by_cases same : innermost = name
              · rw [nesting, if_pos same] at nested
                rw [List.cons_append, nesting, if_pos same]
                exact ih others nested
              · exact absurd nested (by simp [nesting, same])

/-- The content of an element is followed by its end tag and nests by itself. -/
theorem content_split {inner events : List Event} {name : Str} (opened outer : List Str)
    (nested : (nesting (opened ++ name :: outer) events).isSome = true)
    (found : content opened.length events = some inner) :
    (∃ after, events = inner ++ .close name :: after) ∧ nesting opened inner = some [] := by
  induction events generalizing opened inner with
  | nil => exact absurd found (by simp [content])
  | cons event rest ih =>
      cases event with
      | start e =>
          obtain ⟨later, within, rfl⟩ := Option.map_eq_some_iff.mp found
          obtain ⟨⟨after, split⟩, closed⟩ := ih (e.name :: opened) nested within
          exact ⟨⟨after, by rw [split, List.cons_append]⟩, closed⟩
      | empty e =>
          obtain ⟨later, within, rfl⟩ := Option.map_eq_some_iff.mp (by simpa [content] using found)
          obtain ⟨⟨after, split⟩, closed⟩ := ih opened nested within
          exact ⟨⟨after, by rw [split, List.cons_append]⟩, closed⟩
      | text raw =>
          obtain ⟨later, within, rfl⟩ := Option.map_eq_some_iff.mp (by simpa [content] using found)
          obtain ⟨⟨after, split⟩, closed⟩ := ih opened nested within
          exact ⟨⟨after, by rw [split, List.cons_append]⟩, closed⟩
      | other =>
          obtain ⟨later, within, rfl⟩ := Option.map_eq_some_iff.mp (by simpa [content] using found)
          obtain ⟨⟨after, split⟩, closed⟩ := ih opened nested within
          exact ⟨⟨after, by rw [split, List.cons_append]⟩, closed⟩
      | close other =>
          cases opened with
          | nil =>
              obtain rfl := Option.some.inj found
              rw [List.nil_append, nesting] at nested
              split at nested
              · rename_i same
                exact ⟨⟨rest, by rw [same, List.nil_append]⟩, rfl⟩
              · exact absurd nested (by simp)
          | cons innermost others =>
              obtain ⟨later, within, rfl⟩ := Option.map_eq_some_iff.mp found
              rw [List.cons_append, nesting] at nested
              split at nested
              · rename_i same
                obtain ⟨⟨after, split⟩, closed⟩ := ih others nested within
                refine ⟨⟨after, by rw [split, List.cons_append]⟩, ?_⟩
                rw [nesting, if_pos same, closed]
              · exact absurd nested (by simp)

/-! ## Counting tags -/

/-- A kind of element is ended as often as it was open before or is opened, the
ones left open aside. -/
theorem count_ends (kind : Str → Bool) (opened : List Str) {left : List Str} {events : List Event}
    (nested : nesting opened events = some left) :
    left.countP kind + events.countP (fun event => event.ends.any kind) =
      opened.countP kind + events.countP fun event => event.begins.any kind := by
  induction events generalizing opened with
  | nil =>
      obtain rfl := Option.some.inj nested
      rfl
  | cons event rest ih =>
      rw [List.countP_cons, List.countP_cons]
      cases event with
      | start e =>
          have later := ih (e.name :: opened) nested
          rw [List.countP_cons] at later
          change _ + (_ + 0) = _ + (_ + if kind e.name = true then 1 else 0)
          omega
      | empty e => exact ih opened nested
      | text raw => exact ih opened nested
      | other => exact ih opened nested
      | close name =>
          cases opened with
          | nil => exact absurd nested (by simp [nesting])
          | cons innermost others =>
              by_cases same : innermost = name
              · rw [nesting, if_pos same] at nested
                have later := ih others nested
                rw [List.countP_cons, same]
                change _ + (_ + if kind name = true then 1 else 0) = _ + (_ + 0)
                omega
              · exact absurd nested (by simp [nesting, same])

end Library.Xml
