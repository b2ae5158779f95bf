import OpenVoice.Lib.LinkedList
import OpenVoice.StreamQueue.Fifo
import Mathlib.Logic.Function.Basic

/-!
# `StreamQueue` (`pending_queue.h`)

The streams share one list `queue_` of data items and tag items: the data of a stream stands in
front of its tag.  `tag_queue_` holds iterators to the tags in start order and `item_tags_` maps
an id to the iterator of its tag.

A function that dereferences an iterator or checks an `assert` returns an `Option`: `none` is a
failed `assert`, an iterator to a node that is not in the list, or `front`/`pop_front` of an
empty list.
-/

namespace OpenVoice

open OpenVoice.Lib

/-- `StreamQueue::QueueItem::ItemType`. -/
inductive ItemType where
  | data | uncompleted | completed | deleted | error
deriving DecidableEq, Repr

/-- `StreamQueue::QueueItem`; `err` is a sixteen-bit field, `data_count` a `uint32_t`. -/
structure QueueItem (T A : Type) where
  type : ItemType
  polling : Bool
  err : BitVec 16
  id : Int
  content : Sp T
  arg : Sp A
  dataCount : BitVec 32
deriving DecidableEq, Repr

/-- `StreamQueue::StreamingItemPos`, an iterator into `queue_`. -/
abbrev StreamingItemPos := Nat

/-- The three members of `StreamQueue`; `nextPos` is the position the next list node gets. -/
structure StreamQueue (T A : Type) where
  queue : List (Node (QueueItem T A))
  tagQueue : List StreamingItemPos
  itemTags : Int → Option StreamingItemPos
  nextPos : Nat

namespace StreamQueue

variable {T A : Type}

def empty : StreamQueue T A :=
  { queue := [], tagQueue := [], itemTags := fun _ => none, nextPos := 0 }

def start (id : Int) (q : StreamQueue T A) : Bool × StreamQueue T A :=
  if (q.itemTags id).isSome then (false, q)
  else
    let item : QueueItem T A :=
      { type := .uncompleted, polling := false, err := 0, id := id, content := none,
        arg := none, dataCount := 0 }
    (true,
      { queue := q.queue ++ [⟨q.nextPos, item⟩]
        itemTags := Function.update q.itemTags id (some q.nextPos)
        tagQueue := q.tagQueue ++ [q.nextPos]
        nextPos := q.nextPos + 1 })

def stream (id : Int) (data : Sp T) (q : StreamQueue T A) : Option (Bool × StreamQueue T A) :=
  match q.itemTags id with
  | none => some (false, q)
  | some it => do
      let tag ← LinkedList.deref it q.queue
      if tag.type ≠ .uncompleted then return (false, q)
      let item : QueueItem T A :=
        { type := .data, polling := false, err := 0, id := 0, content := data, arg := none,
          dataCount := 0 }
      let queue := LinkedList.insertBefore it ⟨q.nextPos, item⟩ q.queue
      let queue := LinkedList.modify it
        (fun tag => { tag with dataCount := tag.dataCount + 1 }) queue
      return (true, { q with queue := queue, nextPos := q.nextPos + 1 })

def end_ (id : Int) (data : Sp T) (q : StreamQueue T A) : Option (Bool × StreamQueue T A) :=
  match q.itemTags id with
  | none => some (false, q)
  | some it => do
      let _ ← LinkedList.deref it q.queue
      let queue := LinkedList.modify it
        (fun tag => { tag with
          type := .completed, content := if data.isSome then data else tag.content }) q.queue
      return (true, { q with queue := queue })

def setArg (id : Int) (arg : Sp A) (q : StreamQueue T A) : Option (StreamQueue T A) :=
  match q.itemTags id with
  | none => some q
  | some it => do
      let _ ← LinkedList.deref it q.queue
      return { q with queue := LinkedList.modify it (fun tag => { tag with arg := arg }) q.queue }

def getArg (id : Int) (q : StreamQueue T A) : Option (Sp A) :=
  match q.itemTags id with
  | none => some none
  | some it => do
      let tag ← LinkedList.deref it q.queue
      return tag.arg

/-- The backward scan of `erase`: how many data items stand right in front of the tag, given
    the items in front of it, nearest first. -/
def scanBack : List (Node (QueueItem T A)) → Nat
  | [] => 0
  | n :: rest => if n.val.type ≠ .data then 0 else scanBack rest + 1

def erase (id : Int) (err : BitVec 32) (q : StreamQueue T A) :
    Option (Bool × StreamQueue T A) :=
  match q.itemTags id with
  | none => some (false, q)
  | some lastIt => do
      let tag ← LinkedList.deref lastIt q.queue
      if id ≠ tag.id then none
      let c := scanBack (LinkedList.before lastIt q.queue).reverse
      if tag.type = .data then none
      let queue := LinkedList.modify lastIt
        (fun tag =>
          if err ≠ 0 then { tag with content := none, type := .error, err := err.setWidth 16 }
          else { tag with content := none, type := .deleted }) q.queue
      if c = 0 then return (true, { q with queue := queue })
      let queue := LinkedList.modify lastIt
        (fun tag => { tag with dataCount := tag.dataCount - BitVec.ofNat 32 c }) queue
      return (true, { q with queue := LinkedList.eraseBack lastIt c queue })

/-- The loop of `clear`; `c` counts the data items erased so far, of all streams. -/
def clearLoop (c : BitVec 32) : List (Node (QueueItem T A)) → List (Node (QueueItem T A))
  | [] => []
  | n :: rest =>
      if n.val.type = .data then clearLoop (c + 1) rest
      else
        { n with val := { n.val with
          type := .deleted, content := none, dataCount := n.val.dataCount - c } } ::
          clearLoop c rest

/-- The two numbers are `*min_id` and `*max_id`. -/
def clear (q : StreamQueue T A) : Option ((Int × Int) × StreamQueue T A) := do
  let range ← match q.tagQueue.head?, q.tagQueue.getLast? with
    | some front, some back => do
        let min ← LinkedList.deref front q.queue
        let max ← LinkedList.deref back q.queue
        pure (min.id, max.id)
    | _, _ => pure (0, 0)
  return (range, { q with queue := clearLoop 0 q.queue })

def close (q : StreamQueue T A) : StreamQueue T A :=
  { q with queue := [], itemTags := fun _ => none, tagQueue := [] }

def available (q : StreamQueue T A) : Option Bool :=
  match q.tagQueue with
  | [] => some false
  | ip :: _ => do
      let item ← LinkedList.deref ip q.queue
      if item.type = .data then none
      if item.type = .uncompleted ∧ item.polling = true then
        return q.queue.head?.map (·.pos) ≠ some ip
      return true

/-- `queue_.pop_front()` together with the removal of the front tag. -/
def popTag (item : QueueItem T A) (q : StreamQueue T A) : Option (StreamQueue T A) :=
  match q.queue with
  | [] => none
  | _ :: rest =>
      some { q with
        itemTags := Function.update q.itemTags item.id none
        tagQueue := q.tagQueue.tail
        queue := rest }

def pop (out : PopArgs T) (q : StreamQueue T A) :
    Option (PopType × PopArgs T × StreamQueue T A) :=
  match q.tagQueue with
  | [] => some (.empty, out, q)
  | ip :: _ => do
      let item ← LinkedList.deref ip q.queue
      if item.type = .data then none
      if item.type = .uncompleted ∨ item.type = .completed then
        if item.polling = false then
          let queue := LinkedList.modify ip (fun item => { item with polling := true }) q.queue
          return (.start, { out with id := item.id }, { q with queue := queue })
        if q.queue.head?.map (·.pos) = some ip then
          if item.type = .uncompleted then return (.empty, out, q)
          let out := { out with
            id := item.id, res := if item.content.isSome then item.content else out.res }
          let q ← popTag item q
          return (.end_, out, q)
        let queue := LinkedList.modify ip
          (fun item => { item with dataCount := item.dataCount - 1 }) q.queue
        match queue with
        | [] => none
        | front :: rest =>
            if front.val.type ≠ .data then none
            return (.data, { out with id := item.id, res := front.val.content },
              { q with queue := rest })
      else if item.type = .deleted then
        let q ← popTag item q
        return (.removed, { out with id := item.id }, q)
      else
        let q ← popTag item q
        return (.error, { out with id := item.id, err := item.err.setWidth 32 }, q)

end StreamQueue

end OpenVoice
