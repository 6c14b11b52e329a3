/-
# wumpus: the module's functions

Players hunt the wumpus in a maze of rooms with one-way exits. `START` arms a
timer that starts the game with those who have joined by then; from then on a
second timer moves the wumpus, as some shots do; the game ends when the wumpus
is killed, fewer than two players are left, or an operator resets it.

`State` is the `game_t` of the source, the event loop and the users' nicks. A
room pointer is the room's index in `rmemctx`, a player pointer is a number
(`Player.addr`) given out once, which names a player object until it is freed;
following one that names nothing, or a null location, is a fault, and after a
fault there is no next step. The functions are programs over the state and
the messages the event sends, and draw `rand()` off the event's numbers. A timer handle
that is destroyed although it names nothing is noted by the event loop
(`EventLoop.misused`). The debug log is left out.

Key definitions: `State`, `buildMaze`, `initGame`, `endGame`, `shootPlayer`,
`moveWumpus`, `movePlayer`, `Act`, `step`.
-/
import AthemeContrib.Command
import AthemeContrib.Lib.EventLoop
import AthemeContrib.Lib.Prog
import AthemeContrib.Lib.Run

namespace AthemeContrib
namespace Wumpus

open Prog

/-- `contents_t` -/
inductive Contents
  | nothing
  | wumpus
  | pit
  | bats
  | arrows
  | crystalball
deriving DecidableEq, Repr

/-- `room_t`: a room that the wumpus or players could be in. -/
structure Room where
  id : ℕ
  exits : List ℕ
  contents : Contents
  players : List ℕ
deriving DecidableEq, Repr

/-- A room that `scalloc` has just cleared. -/
def Room.zero : Room := ⟨0, [], .nothing, []⟩

/-- `player_t`: a player object, at the address `addr`. -/
structure Player where
  addr : ℕ
  u : ℕ
  location : Option ℕ
  arrows : ℤ
  hp : ℤ
  hasMoved : Bool
deriving DecidableEq, Repr

/-- The two timer callbacks. -/
inductive Callback
  | moveWumpus
  | startGame
deriving DecidableEq, Repr

/-- `game_t`, the event loop, the next address, the users' nicks, and whether
the module is loaded and has not crashed. -/
structure State where
  wumpus : ℤ
  mazesize : ℕ
  players : List Player
  running : Bool
  starting : Bool
  rmemctx : Option (List Room)
  wumpHp : ℤ
  speed : ℤ
  wantsize : ℕ
  moveTimer : Option ℕ
  startGameTimer : Option ℕ
  loop : EventLoop Callback
  fresh : ℕ
  nick : ℕ → String
  loaded : Bool
  faulted : Bool

/-- The state and what the last event has sent. -/
structure World where
  st : State
  out : List Output

/-- The module has just been loaded. -/
def init : World where
  st :=
    { wumpus := 0, mazesize := 0, players := [], running := false, starting := false, rmemctx := none,
      wumpHp := 0, speed := 0, wantsize := 0, moveTimer := none, startGameTimer := none,
      loop := EventLoop.init, fresh := 0, nick := fun _ => "", loaded := true, faulted := false }
  out := []

def State.room? (s : State) (i : ℕ) : Option Room := s.rmemctx.bind (·[i]?)

def State.updRoom (s : State) (i : ℕ) (f : Room → Room) : State :=
  { s with rmemctx := s.rmemctx.map (·.modify i f) }

def State.player? (s : State) (a : ℕ) : Option Player := s.players.find? (·.addr = a)

def State.updPlayer (s : State) (a : ℕ) (f : Player → Player) : State :=
  { s with players := s.players.map fun p => if p.addr = a then f p else p }

/-- `find_player(u)` -/
def State.findPlayer (s : State) (u : ℕ) : Option Player := s.players.find? (·.u = u)

/-! ### Pointers and messages -/

/-- The game is changed. -/
def update (f : State → State) : Prog World Unit := modify fun w => { w with st := f w.st }

def getState : Prog World State := do return (← get).st

def notice (u : ℕ) (text : String) : Prog World Unit :=
  modify fun w => { w with out := w.out ++ [.notice (w.st.nick u) text] }

def msg (text : String) : Prog World Unit := modify fun w => { w with out := w.out ++ [.msg "#wumpus" text] }

/-- A room pointer is followed. -/
def roomPtr (i : ℕ) : Prog World Room := do deref ((← getState).room? i)

/-- `wumpus.rmemctx[id]` -/
def rmemctxAt (id : ℤ) : Prog World Room := if id < 0 then fault else roomPtr id.toNat

def setRoom (i : ℕ) (f : Room → Room) : Prog World Unit := do
  let _ ← roomPtr i
  update (·.updRoom i f)

def setContents (i : ℕ) (c : Contents) : Prog World Unit := setRoom i fun r => { r with contents := c }

/-- A player pointer is followed. -/
def playerPtr (a : ℕ) : Prog World Player := do deref ((← getState).player? a)

def setPlayer (a : ℕ) (f : Player → Player) : Prog World Unit := do
  let _ ← playerPtr a
  update (·.updPlayer a f)

/-- `*p->location` -/
def location (p : Player) : Prog World Room := do roomPtr (← deref p.location)

/-- `p` is taken out of the player list of the room `i`. -/
def leaveRoom (a i : ℕ) : Prog World Unit := do
  let r ← roomPtr i
  if a ∈ r.players then update (·.updRoom i fun r => { r with players := r.players.erase a }) else fault

/-- `p` is put into the player list of the room `i`. -/
def joinRoom (a i : ℕ) : Prog World Unit := setRoom i fun r => { r with players := r.players ++ [a] }

/-! ### Utility functions -/

/-- Is there a wumpus in one of the rooms? -/
def anyWumpus : List ℕ → Prog World Bool
  | [] => pure false
  | n :: ns => do
    let r ← roomPtr n
    if r.contents = .wumpus then pure true else anyWumpus ns

/-- The loop of `distance_to_wumpus` over the exits. -/
def distanceFrom : List ℕ → Prog World ℕ
  | [] => pure 0
  | n :: ns => do
    let r ← roomPtr n
    if r.contents = .wumpus then pure 1
    else do
      let two ← anyWumpus r.exits
      if two then pure 2 else distanceFrom ns

/-- `distance_to_wumpus(player)` -/
def distanceToWumpus (p : Player) : Prog World ℕ := do
  let loc ← location p
  distanceFrom loc.exits

/-- Is one of the rooms the room `id`? -/
def anyRoom (id : ℤ) : List ℕ → Prog World Bool
  | [] => pure false
  | n :: ns => do
    let r ← roomPtr n
    if r.id = id then pure true else anyRoom id ns

/-- `adjacent_room(p, id)` -/
def adjacentRoom (p : Player) (id : ℤ) : Prog World Bool := do
  let loc ← location p
  anyRoom id loc.exits

/-- The object that `create_player` adds. -/
def newPlayer (a u : ℕ) : Player := ⟨a, u, none, 10, 30, false⟩

/-- `create_player(u)` -/
def createPlayer (u : ℕ) : Prog World (Option ℕ) := do
  let s ← getState
  if (s.findPlayer u).isSome then do
    notice u "You are already playing the game!"
    pure none
  else if s.running then do
    notice u "The game is already in progress. Sorry!"
    pure none
  else do
    update fun s => { s with players := s.players ++ [newPlayer s.fresh u], fresh := s.fresh + 1 }
    pure (some s.fresh)

/-- `resign_player(player)` -/
def resignPlayer (a : ℕ) : Prog World Unit := do
  let p ← playerPtr a
  match p.location with
  | some i => leaveRoom a i
  | none => pure ()
  update fun s => { s with players := s.players.filter (·.addr ≠ a) }

/-! ### Building the maze -/

/-- The loop that looks for an exit other than the room itself: `t` is the
last number, `ids` the ids found in the rooms that are exits already. -/
def pickExit (id size : ℕ) (ids : List ℕ) : ℕ → List ℕ → Option (ℕ × List ℕ)
  | t, [] => if t = id then none else some (t, [])
  | t, r :: rs =>
    if t = id then pickExit id size ids (ids.foldl (fun t rm => if rm = t then id else t) (r % size)) rs
    else some (t, r :: rs)

/-- `pickExit` on the numbers of the run. -/
def pickLoop (id size : ℕ) (ids : List ℕ) (t : ℕ) : Prog World ℕ := fun w rs =>
  match pickExit id size ids t rs with
  | none => .starved
  | some (t, rs) => .done t w rs

/-- The exit that is added next. -/
def drawExit (id size : ℕ) (ids : List ℕ) : Prog World ℕ := do
  let t ← randBelow size
  pickLoop id size ids t

/-- The ids stored in the rooms pointed at; a room that is not dug yet has
the id 0. -/
def idsOf : List ℕ → Prog World (List ℕ)
  | [] => pure []
  | n :: ns => do
    let r ← roomPtr n
    let ids ← idsOf ns
    pure (r.id :: ids)

/-- One more exit of the room `i`, if it has not three. -/
def addExit (size i : ℕ) : Prog World Unit := do
  let r ← roomPtr i
  when (r.exits.length < 3) do
    let ids ← idsOf r.exits
    let t ← drawExit r.id size ids
    setRoom i fun r => { r with exits := r.exits ++ [t] }

/-- The room `i` is cleared, numbered and given its exits. -/
def digRoom (size i : ℕ) : Prog World Unit := do
  setRoom i fun _ => { Room.zero with id := i }
  forEach (fun _ => addExit size i) [0, 1, 2]

/-- One pass over the rooms that puts `c` where a number is a multiple of `m`. -/
def populate (size m : ℕ) (c : Contents) : Prog World Unit :=
  forEach (fun j => do
    let r ← rand
    when (r % m = 0) (setContents j c)) (List.range size)

/-- The sanity check at the end of `build_maze`. -/
def checkMaze : List ℕ → Prog World Bool
  | [] => pure true
  | j :: js => do
    let r ← roomPtr j
    if r.exits.length < 3 then pure false else checkMaze js

/-- The rooms are allocated and dug. -/
def digMaze (size : ℕ) : Prog World Unit := do
  update fun s => { s with mazesize := size, rmemctx := some (List.replicate size Room.zero) }
  forEach (digRoom size) (List.range size)

/-- The wumpus, the pits, the bats, the arrows and the crystal ball. -/
def fillMaze (size : ℕ) : Prog World Unit := do
  let d ← randBelow size
  update fun s => { s with wumpus := d }
  setContents d .wumpus
  populate size (42 * 2) .pit
  forEach (fun _ => populate size 42 .bats) [0, 1]
  forEach (fun _ => populate size 42 .arrows) [0, 1, 2]
  let d ← randBelow size
  setContents d .crystalball

/-- `build_maze(size)` -/
def buildMaze (size : ℕ) : Prog World Bool :=
  if size < 10 then pure false
  else do
    digMaze size
    fillMaze size
    checkMaze (List.range size)

/-! ### Game functions -/

/-- `end_game()` -/
def endGame : Prog World Unit := do
  let s ← getState
  forEach resignPlayer (s.players.map (·.addr))
  match s.rmemctx with
  | some _ => do
    forEach (fun i => setRoom i fun r => { r with exits := [] }) (List.range s.mazesize)
    update fun s => { s with rmemctx := none }
  | none => pure ()
  update fun s => { s with
    wumpus := -1, running := false, loop := s.loop.timerDestroy s.moveTimer, moveTimer := none }

/-- The warnings `look_player` gives of one exit. -/
def warn (u n : ℕ) : Prog World Unit := do
  let r ← roomPtr n
  when (r.contents = .wumpus) (notice u "You smell a wumpus!")
  when (r.contents = .pit) (notice u "You feel a draft!")
  when (r.contents = .bats) (notice u "You hear bats!")
  when (0 < r.players.length) (notice u "You smell humans!")

/-- `look_player(p)` -/
def lookPlayer (a : ℕ) : Prog World Unit := do
  let p ← playerPtr a
  match p.location with
  | none => pure ()
  | some i => do
    let loc ← roomPtr i
    notice p.u s!"You are in room {loc.id}."
    forEach (fun n => do
      let r ← roomPtr n
      notice p.u s!"You can move to room {r.id}.") loc.exits
    let d ← distanceToWumpus p
    when (d ≠ 0) (notice p.u "You smell a wumpus!")
    forEach (warn p.u) loc.exits

/-- A player is put into a random room. -/
def placePlayer (a : ℕ) : Prog World Unit := do
  let s ← getState
  let d ← randBelow s.mazesize
  setPlayer a fun p => { p with location := some d }
  joinRoom a d
  lookPlayer a

/-- `init_game(size)` -/
def initGame (size : ℕ) : Prog World Unit := do
  let built ← buildMaze size
  if !built then do
    msg "Maze generation failed, please try again."
    endGame
  else do
    let s ← getState
    forEach placePlayer (s.players.map (·.addr))
    update fun s => { s with loop := s.loop.timerAdd .moveWumpus 60, moveTimer := some s.loop.next }
    msg "The game has started!"
    update fun s => { s with running := true, speed := 60, wumpHp := 70, startGameTimer := none }

/-- `start_game` -/
def startGame : Prog World Unit := do
  update fun s => { s with starting := false }
  let s ← getState
  if s.players.length < 2 then msg "Not enough players to play. :("
  else do
    let size := if 300 ≤ s.wantsize then 300 else s.wantsize
    update fun s => { s with wantsize := size }
    initGame size

def wonText (nick : String) : String := s!"{nick} won the game! Congratulations!"

/-- `check_last_person_alive()` -/
def checkLastPersonAlive : Prog World Unit := do
  let s ← getState
  match s.players with
  | [p] => do
    msg (wonText (s.nick p.u))
    endGame
  | [] => do
    msg "Everyone lost. Sucks. :("
    endGame
  | _ => pure ()

/-- `regen_obj(obj)` -/
def regenObj (obj : Contents) : Prog World Unit := do
  let s ← getState
  let d ← randBelow s.mazesize
  setContents d obj

/-- The loop of `move_wumpus` over the players; the number it has eaten. -/
def eatPlayers : List ℕ → Prog World ℕ
  | [] => pure 0
  | a :: as => do
    let p ← playerPtr a
    let loc ← location p
    let s ← getState
    if s.wumpus = loc.id then do
      notice p.u "The wumpus has joined your room and eaten you. Sorry."
      resignPlayer a
      let kills ← eatPlayers as
      pure (kills + 1)
    else do
      setPlayer a fun p => { p with hasMoved := false }
      eatPlayers as

/-- `move_wumpus` -/
def moveWumpus : Prog World Unit := do
  let s ← getState
  match s.rmemctx with
  | none => update fun s => { s with loop := s.loop.timerDestroy s.moveTimer }
  | some _ => do
    msg "You hear footsteps..."
    let r ← rmemctxAt s.wumpus
    regenObj r.contents
    setContents s.wumpus.toNat .nothing
    let d ← randBelow r.exits.length
    let n ← deref r.exits[d]?
    let tr ← roomPtr n
    update fun s => { s with wumpus := tr.id }
    setContents n .wumpus
    let s ← getState
    let kills ← eatPlayers (s.players.map (·.addr))
    let plural := if kills ≠ 1 then "s" else ""
    when (kills ≠ 0) (msg s!"You hear the screams of {kills} surprised adventurer{plural}.")
    checkLastPersonAlive

/-- An arrow at the player `tp`. -/
def shootAtPlayer (a hit tp : ℕ) : Prog World Unit := do
  let p ← playerPtr a
  let t ← playerPtr tp
  let s ← getState
  if hit < 2 ∧ t.hp ≤ 10 then do
    msg s!"\x02{s.nick t.u}\x02 has been killed by \x02{s.nick p.u}\x02!"
    resignPlayer tp
  else do
    let loc ← location p
    if 0 < t.hp ∧ hit < 2 then do
      notice t.u s!"You were hit by an arrow from room {loc.id}."
      notice p.u "You hit something."
      setPlayer tp fun t => { t with hp := t.hp - 10 }
    else do
      notice t.u s!"You have been shot at from room {loc.id}."
      notice p.u "You miss what you were shooting at."

/-- An arrow at the wumpus. -/
def shootAtWumpus (a hit : ℕ) : Prog World Unit := do
  let p ← playerPtr a
  let s ← getState
  if (0 < s.wumpHp ∧ s.wumpHp ≤ 5) ∧ hit < 2 then do
    notice p.u "You have killed the wumpus!"
    msg s!"The wumpus was killed by \x02{s.nick p.u}\x02."
    msg s!"{s.nick p.u} has won the game! Congratulations!"
    endGame
  else if 5 < s.wumpHp ∧ hit < 2 then do
    notice p.u "You shoot the Wumpus, but he shrugs it off and seems angrier!"
    update fun s => { s with wumpHp := s.wumpHp - 5, speed := s.speed - 3 }
    moveWumpus
    update fun s =>
      let l := s.loop.timerDestroy s.moveTimer
      { s with loop := l.timerAdd .moveWumpus s.speed, moveTimer := some l.next }
  else do
    notice p.u "You miss what you were shooting at."
    moveWumpus

/-- `shoot_player(p, target_id)` -/
def shootPlayer (a : ℕ) (targetId : ℤ) : Prog World Unit := do
  let hit ← randBelow 3
  let p ← playerPtr a
  if p.arrows = 0 then notice p.u "You have no arrows!"
  else do
    let adjacent ← adjacentRoom p targetId
    if !adjacent then notice p.u s!"You can't shoot into room {targetId} from here."
    else do
      let loc ← location p
      if loc.id = targetId then notice p.u "You can only shoot into adjacent rooms!"
      else do
        let r ← rmemctxAt targetId
        setPlayer a fun p => { p with arrows := p.arrows - 1 }
        match r.players with
        | tp :: _ => shootAtPlayer a hit tp
        | [] =>
          if r.contents = .wumpus then shootAtWumpus a hit else notice p.u "You shoot at nothing."

/-- The bats of `move_player`: where the player gets to from the room `id`. -/
def meetBats (p : Player) (id : ℕ) : Prog World ℕ := do
  let r ← roomPtr id
  if r.contents = .bats then do
    let s ← getState
    let target ← randBelow s.mazesize
    notice p.u s!"Bats have picked you up and taken you to room {target}."
    msg "You hear a surprised yell."
    setContents id .nothing
    setContents target .bats
    pure target
  else pure id

/-- The arrows of `move_player`. -/
def findArrows (a id : ℕ) : Prog World Unit := do
  let r ← roomPtr id
  when (r.contents = .arrows) do
    let p ← playerPtr a
    if p.arrows = 0 then do
      notice p.u "You found some arrows. You pick them up and continue on your way."
      setPlayer a fun p => { p with arrows := p.arrows + 5 }
    else notice p.u ("You found some arrows. You don't have any room to take them however, " ++
      "so you break them in half and continue on your way.")
    setContents id .nothing
    regenObj .arrows

/-- The crystal ball of `move_player`. -/
def findBall (a id : ℕ) : Prog World Unit := do
  let r ← roomPtr id
  when (r.contents = .crystalball) do
    let p ← playerPtr a
    let s ← getState
    notice p.u (s!"You find a strange pulsating crystal ball. You examine it, and it shows room {s.wumpus}" ++
      " with the wumpus in it.")
    notice p.u "The crystal ball then vanishes into the miasma."
    setContents id .nothing
    let d ← randBelow s.mazesize
    setContents d .crystalball

/-- The end of `move_player`: the player gets to the room `id`. -/
def arrive (a id : ℕ) : Prog World Unit := do
  let p ← playerPtr a
  let i ← deref p.location
  leaveRoom a i
  setPlayer a fun p => { p with location := some id }
  joinRoom a id
  lookPlayer a
  let r ← roomPtr id
  let s ← getState
  when (1 < r.players.length) do
    forEach (fun n => when (n ≠ a) do
      let tp ← playerPtr n
      notice tp.u s!"{s.nick p.u} has joined room {id} with you."
      notice p.u s!"You see {s.nick tp.u}!") r.players

/-- `move_player(p, id)` -/
def movePlayer (a : ℕ) (id : ℤ) : Prog World Unit := do
  let p ← playerPtr a
  let adjacent ← adjacentRoom p id
  if !adjacent then notice p.u s!"Sorry, you cannot get to room {id} from here."
  else do
    let _ ← rmemctxAt id
    let id ← meetBats p id.toNat
    let s ← getState
    if s.wumpus = id then do
      notice p.u "You see the wumpus approaching you. You scream for help, but it is too late."
      msg "You hear a blood-curdling scream."
      resignPlayer a
      checkLastPersonAlive
    else do
      let r ← roomPtr id
      if r.contents = .pit then do
        notice p.u "You have fallen into a bottomless pit. Sorry."
        msg "You hear a faint wail, which gets fainter and fainter."
        resignPlayer a
        checkLastPersonAlive
      else do
        findArrows a id
        findBall a id
        arrive a id

/-! ### Commands -/

/-- `START [size]` -/
def cmdStart (u : ℕ) (size : Option CStr) : Prog World Unit := do
  let s ← getState
  if s.running ∨ s.starting then notice u "A game is already in progress. Sorry."
  else do
    msg (s!"\x02{s.nick u}\x02 has started the game! Use \x02/msg Wumpus JOIN\x02 to play! " ++
      "You have\x02 60 seconds\x02.")
    let wantsize := match size with
      | some size => (CStr.atoi size % 2 ^ 32).toNat
      | none => 100
    update fun s => { s with
      starting := true, wantsize := wantsize
      loop := s.loop.timerAddOnce .startGame 60, startGameTimer := some s.loop.next }

/-- `JOIN` -/
def cmdJoin (u : ℕ) : Prog World Unit := do
  let s ← getState
  if ¬ s.starting ∨ s.running then notice u "You cannot use this command right now. Sorry."
  else do
    let p ← createPlayer u
    when p.isSome (msg s!"\x02{s.nick u}\x02 has joined the game!")

def notPlayingText : String := "You must be playing the game in order to use this command."

def notRunningText : String := "The game must be running in order to use this command."

/-- `LOOK` -/
def cmdLook (u : ℕ) : Prog World Unit := do
  let s ← getState
  match s.findPlayer u with
  | none => notice u notPlayingText
  | some p =>
    if s.running then lookPlayer p.addr else notice u "You cannot use this command right now. Sorry."

/-- `MOVE [id]` -/
def cmdMove (u : ℕ) (id : Option CStr) : Prog World Unit := do
  let s ← getState
  match s.findPlayer u, id with
  | none, _ => notice u notPlayingText
  | some _, none => notice u "You must provide a room to move to."
  | some p, some id => if s.running then movePlayer p.addr (CStr.atoi id) else notice u notRunningText

/-- `SHOOT [id]` -/
def cmdShoot (u : ℕ) (id : Option CStr) : Prog World Unit := do
  let s ← getState
  match s.findPlayer u, id with
  | none, _ => notice u notPlayingText
  | some _, none => notice u "You must provide a room to shoot at."
  | some p, some id => if s.running then shootPlayer p.addr (CStr.atoi id) else notice u notRunningText

/-- `RESIGN` -/
def cmdResign (u : ℕ) : Prog World Unit := do
  let s ← getState
  match s.findPlayer u with
  | none => notice u notPlayingText
  | some p =>
    if s.running then do
      msg s!"\x02{s.nick p.u}\x02 has quit the game!"
      resignPlayer p.addr
    else notice u notRunningText

/-- `RESET` -/
def cmdReset (u : ℕ) : Prog World Unit := do
  let s ← getState
  when s.running do
    msg s!"\x02{s.nick u}\x02 has ended the game."
    endGame
    update fun s => { s with running := false, starting := false }

/-- `WHO` -/
def cmdWho (u : ℕ) : Prog World Unit := do
  notice u "The following people are playing:"
  let s ← getState
  forEach (fun p => notice u s!"- {s.nick p.u}") s.players

/-- The hook on users that quit. -/
def userDeleted (u : ℕ) : Prog World Unit := do
  let s ← getState
  match s.findPlayer u with
  | none => pure ()
  | some p => do
    msg s!"\x02{s.nick p.u}\x02 has quit the game!"
    resignPlayer p.addr

/-- `mod_deinit`: a timer pointer that is not null is destroyed. -/
def modDeinit : Prog World Unit := do
  let s ← getState
  when s.running endGame
  update fun s => { s with
    loop := (s.loop.timerDestroy s.moveTimer).timerDestroy s.startGameTimer, loaded := false }

/-! ### Events -/

/-- What can happen: a command, a user's quit or nick change, a timer, or the
module is unloaded. -/
inductive Act
  | start (u : ℕ) (size : Option CStr)
  | join (u : ℕ)
  | look (u : ℕ)
  | move (u : ℕ) (id : Option CStr)
  | shoot (u : ℕ) (id : Option CStr)
  | resign (u : ℕ)
  | reset (u : ℕ)
  | who (u : ℕ)
  | quit (u : ℕ)
  | nick (u : ℕ) (nick : String)
  | fire (id : ℕ)
  | unload
deriving DecidableEq, Repr

/-- An act and the random numbers it may draw. -/
structure Event where
  act : Act
  draws : List ℕ
deriving DecidableEq, Repr

/-- A timer's callback is run; a one-shot timer is gone afterwards. -/
def runTimer (t : Timer Callback) : Prog World Unit := do
  match t.func with
  | .moveWumpus => moveWumpus
  | .startGame => startGame
  update fun s => { s with loop := s.loop.ran t }

/-- The program of an act; a timer that is not pending does not fire. -/
def program (s : State) : Act → Option (Prog World Unit)
  | .start u size => some (cmdStart u size)
  | .join u => some (cmdJoin u)
  | .look u => some (cmdLook u)
  | .move u id => some (cmdMove u id)
  | .shoot u id => some (cmdShoot u id)
  | .resign u => some (cmdResign u)
  | .reset u => some (cmdReset u)
  | .who u => some (cmdWho u)
  | .quit u => some (userDeleted u)
  | .nick u nick => some (update fun s => { s with nick := fun v => if v = u then nick else s.nick v })
  | .fire id => (s.loop.find id).map runTimer
  | .unload => some modDeinit

/-- One event. Where the numbers do not suffice it is not an event of the
run. -/
def step (w : World) (e : Event) : Option World :=
  if w.st.faulted ∨ ¬ w.st.loaded then none
  else
    (program w.st e.act).bind fun m =>
      match m { w with out := [] } e.draws with
      | .done _ w' _ => some w'
      | .fault => some { w with st := { w.st with faulted := true } }
      | .starved => none

end Wumpus
end AthemeContrib
