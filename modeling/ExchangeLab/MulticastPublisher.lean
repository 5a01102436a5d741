import ExchangeLab.Lib.Transition
import ExchangeLab.SpscRing

/-!
# ExchangeLab.MulticastPublisher

The multicast publisher within one generation: any number of threads in `send`, the publisher thread
in `publisher_loop` and one thread in `stop`, interleaved one access of an atomic at a time.

A thread's position in the code says which access it makes next, and the computation on its own data
that follows an access belongs to that access. A position or cached position that only the running
thread writes is read where it is used. The statistics that no test of the code reads are left out;
`sent` and `sendErrors` stay.
-/

namespace ExchangeLab

/-- The bytes of a datagram. -/
abbrev Datagram := List UInt8

namespace MulticastPublisher

def producerShardCount : Nat := 256

def queueCapacityPerProducer : Nat := 32

def maximumDatagramSize : Nat := 512

structure ProducerShard where
  queue : SpscRing Datagram queueCapacityPerProducer
  activeSender : Bool := false

/-- Where a thread is in `send`. -/
inductive Sending where
  | idle
  /-- In `producer_shard_for_current_thread`. -/
  | registering (datagram : Datagram)
  | activating (shard : Nat) (datagram : Datagram)
  /-- The second look at `running_`. -/
  | rechecking (shard : Nat) (datagram : Datagram)
  | withdrawing (shard : Nat)
  /-- `try_emplace`, up to the store of the write position. -/
  | loadingWrite (shard : Nat) (datagram : Datagram)
  | loadingRead (shard : Nat) (datagram : Datagram)
  | writing (shard : Nat) (datagram : Datagram)
  | storing (shard : Nat) (datagram : Datagram)
  /-- With the datagram that was queued, if it was. -/
  | deactivating (shard : Nat) (queued : Option Datagram)
  /-- `signal_consumer`: the test, then the test-and-set. -/
  | testing (shard : Nat) (queued : Datagram)
  | signalling (shard : Nat) (queued : Datagram)
  deriving DecidableEq, Repr

/-- Where the publisher thread is in `publisher_loop`. -/
inductive Publishing where
  /-- `try_consume` on the shard at `cursor + offset`. -/
  | scanning (cursor offset : Nat)
  | loadingWrite (cursor offset : Nat)
  | consuming (shard : Nat)
  | storingRead (shard : Nat)
  | checkingRunning (cursor : Nat)
  /-- `all_queues_empty`: to decide whether to exit, or whether to wait. -/
  | queueWrite (exiting : Bool) (cursor shard : Nat)
  | queueRead (exiting : Bool) (cursor shard write : Nat)
  /-- `any_active_senders` -/
  | activeSender (cursor shard : Nat)
  | clearing (cursor : Nat)
  | recheckingRunning (cursor : Nat)
  | waiting (cursor : Nat)
  | exited
  deriving DecidableEq, Repr

inductive Stopping where
  | idle
  | signalling
  | joining
  | returned
  deriving DecidableEq, Repr

/-- A thread that sends, with its `producer_registration` for this publisher and generation. -/
structure Producer where
  registration : Option Nat := none
  sending : Sending := .idle

end MulticastPublisher

open MulticastPublisher in
structure MulticastPublisher where
  shards : Nat → ProducerShard
  running : Bool := true
  nextProducerShard : Nat := 0
  wakeRequested : Bool := false
  sent : Nat := 0
  sendErrors : Nat := 0
  producers : Nat → Producer := fun _ => {}
  publishing : Publishing := .scanning 0 0
  stopping : Stopping := .idle

namespace MulticastPublisher

/-- As `start` leaves it, the publisher thread at the head of its loop. -/
def start (slots : Nat → Nat → Datagram) : MulticastPublisher where
  shards shard := { queue := SpscRing.reset { slots := slots shard } }

def queue (publisher : MulticastPublisher) (shard : Nat) :
    SpscRing Datagram queueCapacityPerProducer :=
  (publisher.shards shard).queue

def setQueue (shard : Nat) (queue : SpscRing Datagram queueCapacityPerProducer)
    (publisher : MulticastPublisher) : MulticastPublisher :=
  { publisher with
    shards := Function.update publisher.shards shard { publisher.shards shard with queue } }

def setActiveSender (shard : Nat) (activeSender : Bool) (publisher : MulticastPublisher) :
    MulticastPublisher :=
  { publisher with
    shards := Function.update publisher.shards shard { publisher.shards shard with activeSender } }

def sending (publisher : MulticastPublisher) (thread : Nat) : Sending :=
  (publisher.producers thread).sending

def registration (publisher : MulticastPublisher) (thread : Nat) : Option Nat :=
  (publisher.producers thread).registration

def setSending (thread : Nat) (sending : Sending) (publisher : MulticastPublisher) :
    MulticastPublisher :=
  { publisher with
    producers := Function.update publisher.producers thread
      { publisher.producers thread with sending } }

def register (thread shard : Nat) (publisher : MulticastPublisher) : MulticastPublisher :=
  { publisher with
    producers := Function.update publisher.producers thread
      { publisher.producers thread with registration := some shard } }

def setPublishing (publishing : Publishing) (publisher : MulticastPublisher) :
    MulticastPublisher :=
  { publisher with publishing }

/-- What a step shows: a datagram becoming visible in a queue, a shard's active flag going down at
the end of an attempt to queue, what `send` returns, and what `publisher_loop` hands to the socket
and whether all of it was sent. -/
inductive Event where
  | silent
  | stored (shard : Nat) (datagram : Datagram)
  | cleared (shard : Nat)
  | refused
  | accepted (shard : Nat) (datagram : Datagram)
  | consumed (shard : Nat) (datagram : Datagram) (success : Bool)
  deriving DecidableEq, Repr

/-! ## `publisher_loop` -/

/-- After the shard at `cursor + offset` had nothing. -/
def scanNext (cursor offset : Nat) : Publishing :=
  if offset + 1 < producerShardCount then .scanning cursor (offset + 1) else .checkingRunning cursor

def scanned (cursor offset : Nat) : Nat := (cursor + offset) % producerShardCount

/-- After the queue of `shard` looked empty to `all_queues_empty`. -/
def queueNext (exiting : Bool) (cursor shard : Nat) : Publishing :=
  if shard + 1 < producerShardCount then .queueWrite exiting cursor (shard + 1)
  else if exiting then .activeSender cursor 0
  else .recheckingRunning cursor

/-- After the flag of `shard` was down. -/
def senderNext (cursor shard : Nat) : Publishing :=
  if shard + 1 < producerShardCount then .activeSender cursor (shard + 1) else .exited

/-- One step of the publisher thread; `success` is what `send_datagram` would answer. A waiting
thread goes on only once it is signalled. -/
def publishStep (success : Bool) (publisher : MulticastPublisher) :
    Option (Event × MulticastPublisher) :=
  match publisher.publishing with
  | .scanning cursor offset =>
    let shard := scanned cursor offset
    if (publisher.queue shard).empty then
      some (.silent, publisher.setPublishing (.loadingWrite cursor offset))
    else
      some (.silent, publisher.setPublishing (.consuming shard))
  | .loadingWrite cursor offset =>
    let shard := scanned cursor offset
    let queue := (publisher.queue shard).loadWritePosition
    if queue.empty then
      some (.silent, (publisher.setQueue shard queue).setPublishing (scanNext cursor offset))
    else
      some (.silent, (publisher.setQueue shard queue).setPublishing (.consuming shard))
  | .consuming shard =>
    let counted :=
      if success then { publisher with sent := publisher.sent + 1 }
      else { publisher with sendErrors := publisher.sendErrors + 1 }
    some (.consumed shard (publisher.queue shard).front success,
      counted.setPublishing (.storingRead shard))
  | .storingRead shard =>
    some (.silent, (publisher.setQueue shard (publisher.queue shard).storeReadPosition).setPublishing
      (.scanning ((shard + 1) % producerShardCount) 0))
  | .checkingRunning cursor =>
    if publisher.running then some (.silent, publisher.setPublishing (.clearing cursor))
    else some (.silent, publisher.setPublishing (.queueWrite true cursor 0))
  | .queueWrite exiting cursor shard =>
    some (.silent, publisher.setPublishing
      (.queueRead exiting cursor shard (publisher.queue shard).writePosition))
  | .queueRead exiting cursor shard write =>
    if SpscRing.emptyApprox write (publisher.queue shard).readPosition then
      some (.silent, publisher.setPublishing (queueNext exiting cursor shard))
    else
      some (.silent, publisher.setPublishing (.scanning cursor 0))
  | .activeSender cursor shard =>
    if (publisher.shards shard).activeSender then
      some (.silent, publisher.setPublishing (.scanning cursor 0))
    else
      some (.silent, publisher.setPublishing (senderNext cursor shard))
  | .clearing cursor =>
    some (.silent,
      { publisher with wakeRequested := false }.setPublishing (.queueWrite false cursor 0))
  | .recheckingRunning cursor =>
    if publisher.running then some (.silent, publisher.setPublishing (.waiting cursor))
    else some (.silent, publisher.setPublishing (.scanning cursor 0))
  | .waiting cursor =>
    if publisher.wakeRequested then some (.silent, publisher.setPublishing (.scanning cursor 0))
    else none
  | .exited => none

/-! ## `send` -/

/-- A call of `send`, up to the first look at `running_`. -/
def sendCall (thread : Nat) (datagram : Datagram) (publisher : MulticastPublisher) :
    Option (Event × MulticastPublisher) :=
  match publisher.sending thread with
  | .idle =>
    if !publisher.running || datagram.isEmpty || datagram.length > maximumDatagramSize then
      some (.refused, publisher)
    else
      some (.silent, publisher.setSending thread (.registering datagram))
  | _ => none

/-- One step of a thread that is in `send`. -/
def sendStep (thread : Nat) (publisher : MulticastPublisher) :
    Option (Event × MulticastPublisher) :=
  match publisher.sending thread with
  | .idle => none
  | .registering datagram =>
    match publisher.registration thread with
    | some shard => some (.silent, publisher.setSending thread (.activating shard datagram))
    | none =>
      let shard := publisher.nextProducerShard
      let counted := { publisher with nextProducerShard := shard + 1 }
      if shard ≥ producerShardCount then some (.refused, counted.setSending thread .idle)
      else
        some (.silent, (counted.register thread shard).setSending thread
          (.activating shard datagram))
  | .activating shard datagram =>
    some (.silent,
      (publisher.setActiveSender shard true).setSending thread (.rechecking shard datagram))
  | .rechecking shard datagram =>
    if publisher.running then
      some (.silent, publisher.setSending thread (.loadingWrite shard datagram))
    else
      some (.silent, publisher.setSending thread (.withdrawing shard))
  | .withdrawing shard =>
    some (.refused, (publisher.setActiveSender shard false).setSending thread .idle)
  | .loadingWrite shard datagram =>
    if (publisher.queue shard).full then
      some (.silent, publisher.setSending thread (.loadingRead shard datagram))
    else
      some (.silent, publisher.setSending thread (.writing shard datagram))
  | .loadingRead shard datagram =>
    let queue := (publisher.queue shard).loadReadPosition
    if queue.full then
      some (.silent, (publisher.setQueue shard queue).setSending thread (.deactivating shard none))
    else
      some (.silent, (publisher.setQueue shard queue).setSending thread (.writing shard datagram))
  | .writing shard datagram =>
    some (.silent, (publisher.setQueue shard ((publisher.queue shard).writeSlot datagram)).setSending
      thread (.storing shard datagram))
  | .storing shard datagram =>
    some (.stored shard datagram,
      (publisher.setQueue shard (publisher.queue shard).storeWritePosition).setSending thread
        (.deactivating shard (some datagram)))
  | .deactivating shard queued =>
    let cleared := publisher.setActiveSender shard false
    match queued with
    | none => some (.cleared shard, cleared.setSending thread .idle)
    | some datagram => some (.cleared shard, cleared.setSending thread (.testing shard datagram))
  | .testing shard datagram =>
    if publisher.wakeRequested then
      some (.accepted shard datagram, publisher.setSending thread .idle)
    else
      some (.silent, publisher.setSending thread (.signalling shard datagram))
  | .signalling shard datagram =>
    some (.accepted shard datagram,
      { publisher with wakeRequested := true }.setSending thread .idle)

/-! ## `stop` -/

/-- The thread that calls `stop`; it joins the publisher thread before it returns. -/
def stopStep (publisher : MulticastPublisher) : Option (Event × MulticastPublisher) :=
  match publisher.stopping with
  | .idle => some (.silent, { publisher with running := false, stopping := .signalling })
  | .signalling => some (.silent, { publisher with wakeRequested := true, stopping := .joining })
  | .joining =>
    if publisher.publishing = .exited then some (.silent, { publisher with stopping := .returned })
    else none
  | .returned => none

/-! ## All threads -/

inductive Step : MulticastPublisher → Event → MulticastPublisher → Prop
  | call {publisher publisher' : MulticastPublisher} {event : Event} (thread : Nat)
      (datagram : Datagram) (h : sendCall thread datagram publisher = some (event, publisher')) :
      Step publisher event publisher'
  | send {publisher publisher' : MulticastPublisher} {event : Event} (thread : Nat)
      (h : sendStep thread publisher = some (event, publisher')) : Step publisher event publisher'
  | publish {publisher publisher' : MulticastPublisher} {event : Event} (success : Bool)
      (h : publishStep success publisher = some (event, publisher')) :
      Step publisher event publisher'
  | stop {publisher publisher' : MulticastPublisher} {event : Event}
      (h : stopStep publisher = some (event, publisher')) : Step publisher event publisher'

end MulticastPublisher

end ExchangeLab
