import LibraryLink.CleanupThread
import LibraryLink.PythonReceiver

/-!
# What the receiver makes of a deletion

The cleanup thread sends its text of JSON in a frame of a request, and `process_request` parses the payload of any frame as a
`Request`. Whatever that gives, all branches for the tag of a request raise before they do anything, and so does the one for the tag
of a deletion: nothing is deleted, and no response is written.
-/

namespace LibraryLink.Python

open Kotlin (channelRequest deleteMessage)

/-- All branches for the tag of a request raise, without an effect. -/
theorem processTagged_raises (py : Interpreter) (request : Request) (s : State) :
    ∃ e, processTagged py request s = (.error e, s) := by
  obtain ⟨_ | field⟩ := request
  · exact ⟨.valueError "constructor", rfl⟩
  · cases field with
    | methodCall methodName objectId type static property =>
      cases property
      · exact ⟨.attributeError "objectID", rfl⟩
      · exact ⟨.attributeError "assignedID", rfl⟩
    | importation importedName => exact ⟨.attributeError "importedName", rfl⟩
    | construction className => exact ⟨.valueError "constructor", rfl⟩
    | eval value => exact ⟨.attributeError "args", rfl⟩
    | dynamicInherit value => exact ⟨.attributeError "importName", rfl⟩

/-- `process_request` raises whatever it gets, without an effect. -/
theorem processRequest_raises (py : Interpreter) (messageText : List UInt8) (tag : Nat) (s : State) :
    ∃ e, processRequest py messageText tag s = (.error e, s) := by
  have hbind : ∀ {α β : Type} (x : Code α) (f : α → Code β) (e : Error), x s = (.error e, s) → (x >>= f) s = (.error e, s) := by
    intro α β x f e hx
    show ExceptT.bindCont f (x s).1 (x s).2 = (.error e, s)
    rw [hx]
    rfl
  unfold processRequest
  cases hparse : py.parseFromString messageText with
  | error e => exact ⟨e, rfl⟩
  | ok request =>
    have hbranches : ∃ e, processBranches py messageText tag request s = (.error e, s) := by
      unfold processBranches
      by_cases hdelete : tag = Tag.deleteFromPersistence.code
      · rw [if_pos hdelete]
        cases hloads : py.loads messageText with
        | error e => exact ⟨e, rfl⟩
        | ok message => exact ⟨.attributeError "delete", rfl⟩
      · rw [if_neg hdelete]
        by_cases hrequest : tag = Tag.request.code
        · rw [if_pos hrequest]
          exact processTagged_raises py request s
        · rw [if_neg hrequest]
          exact ⟨.exception, rfl⟩
    obtain ⟨e, he⟩ := hbranches
    refine ⟨e, ?_⟩
    show (processBranches py messageText tag request >>= _) s = _
    exact hbind _ _ e he

/-! ## Deletions -/

/-- A deletion was carried out: the key is gone, every other entry is as it was, and one response was written. -/
structure Deleted (key : String) (s s' : State) : Prop where
  gone : s'.persistence.get key = none
  persistence : ∀ other, other ≠ key → s'.persistence.get other = s.persistence.get other
  globals : ∀ other, other ≠ key → s'.globals.get other = s.globals.get other
  answered : ∃ response, s'.written = s.written ++ [.response response]

/-- For every state and every id, the frame that the cleanup thread sends for the id does not have it deleted. -/
theorem not_deleted (py : Interpreter) (s : State) (id : String) :
    ¬Deleted id s (processRequest py (channelRequest (deleteMessage id)).2 (channelRequest (deleteMessage id)).1.code s).2 := by
  obtain ⟨e, he⟩ := processRequest_raises py (channelRequest (deleteMessage id)).2 (channelRequest (deleteMessage id)).1.code s
  rw [he]
  intro h
  obtain ⟨response, hwritten⟩ := h.answered
  exact List.cons_ne_nil _ _ (List.self_eq_append_right.mp hwritten)

/-- An interpreter with one imported object, which has all attributes; no text is a message, and no command does anything. -/
def oneModule : Interpreter where
  parseFromString _ := .error .decodeError
  loads _ := .error .exception
  exec _ s := (none, s)
  getattr value _ := if value = .object 0 then some (.object 1) else none

/-- A receiver that has one object. -/
def oneObject : State where
  persistence := { items := [("var0", .object 0)], nodup := by decide }

/-- The frame for `var0`: `ParseFromString` takes its first byte for the start of a group, which does not end, and raises. The object
stays, and there is no response. -/
theorem not_deleted_var0 : channelRequest (deleteMessage "var0") =
      (.request, [123, 34, 100, 101, 108, 101, 116, 101, 34, 58, 34, 118, 97, 114, 48, 34, 125]) ∧
    processRequest oneModule (channelRequest (deleteMessage "var0")).2 (channelRequest (deleteMessage "var0")).1.code oneObject =
      (.error .decodeError, oneObject) ∧
    ¬Deleted "var0" oneObject (processRequest oneModule (channelRequest (deleteMessage "var0")).2
      (channelRequest (deleteMessage "var0")).1.code oneObject).2 := by
  refine ⟨by decide, rfl, ?_⟩
  intro h
  cases h.gone

end LibraryLink.Python
