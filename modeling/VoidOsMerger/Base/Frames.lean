/-
  File:      VoidOsMerger/Base/Frames.lean
  Subject:   MULTIPART MESSAGES OVER A ROUTER/DEALER PAIR, lossless and in order.

  A message is a list of frames. The receiving side is a stream of frames, each with the flag that
  says whether more frames of its message follow; one `recv` takes one frame. The sending side
  collects frames until one is sent without the continuation flag. A ROUTER sees every message with
  the sender's identity in front and takes the first frame of what it sends as the addressee.
-/
import Mathlib.Data.List.Basic

namespace VoidOsMerger

/-- The bytes of one frame. -/
abbrev Frame := List UInt8

/-! ## 1. Receiving -/

/-- The frames of a message with the flags the receiver is shown: more follow, except after the
    last. -/
def flagged : List Frame → List (Frame × Bool)
  | [] => []
  | [f] => [(f, false)]
  | f :: g :: rest => (f, true) :: flagged (g :: rest)

/-- What has arrived and is not taken yet, and the flag of the frame taken last. -/
structure Inbox where
  stream : List (Frame × Bool)
  more : Bool
  deriving DecidableEq, Repr

/-- Take one frame; `none` when nothing has arrived. -/
def Inbox.recv (s : Inbox) : Option (Frame × Inbox) :=
  match s.stream with
  | [] => none
  | (f, more) :: stream => some (f, { stream := stream, more := more })

/-! ## 2. Sending -/

/-- The frames of the message being put together, and the messages sent. -/
structure Outbox where
  opened : List Frame
  sent : List (List Frame)
  deriving DecidableEq, Repr

/-- Send one frame, `more` being the continuation flag. -/
def Outbox.send (o : Outbox) (f : Frame) (more : Bool) : Outbox :=
  if more then { o with opened := o.opened ++ [f] }
  else { opened := [], sent := o.sent ++ [o.opened ++ [f]] }

/-! ## 3. Delivery -/

/-- What a ROUTER has received once these messages have arrived, each with its sender's identity; none is
    lost on the way. -/
def routerInbox (arrivals : List (Frame × List Frame)) : Inbox where
  stream := arrivals.flatMap fun a => flagged (a.1 :: a.2)
  more := false

/-- The part of a ROUTER's message that goes to the peer with this identity. -/
def addressed (identity : Frame) : List Frame → Option (List Frame)
  | [] => none
  | addressee :: rest => if addressee = identity then some rest else none

/-- What the DEALER with this identity has received once the ROUTER has sent these messages: the pair is
    taken to be lossless and to keep the order. -/
def dealerInbox (identity : Frame) (messages : List (List Frame)) : Inbox where
  stream := (messages.filterMap (addressed identity)).flatMap flagged
  more := false

end VoidOsMerger
