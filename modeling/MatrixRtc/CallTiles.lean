import Mathlib.Data.Prod.Lex
import Mathlib.Data.String.Basic
import Mathlib.Order.BoundedOrder.Basic
import MatrixRtc.HostRosters
import MatrixRtc.KeySorts

/-!
# The tiles of a call

The roster as it is drawn: a tile for each remote participant and another for a screen it
shares, in the order that every client ranks them in, and our own camera's beside them. What
is given out is the whole order, and full records of the tiles in a window of it.
-/
namespace MatrixRtc.CallTiles
open MediaTransports MediaPools HostRosters KeySorts

inductive UnableToDecrypt where
  | missingKey
  | badKey
  | notEncrypted
deriving DecidableEq, Repr

/-- A participant with all that its tiles show. -/
structure Participant where
  memberId : String
  userId : String
  deviceId : Option String
  isLocal : Bool
  connection : ConnectionState
  unableToDecrypt : Option UnableToDecrypt
  streams : List StreamState
  handRaisedAtMs : Option ℕ
  handRaisedPosition : Option ℕ
  joinedAtMs : Option ℕ
deriving DecidableEq, Repr

inductive TileKind where
  | person
  | screenShare
deriving DecidableEq, Repr

/-- The stream that a kind of tile draws. -/
def TileKind.videoStream : TileKind → MediaStreamKind
  | .person => .camera
  | .screenShare => .screenShare

structure TileId where
  memberId : String
  kind : TileKind
deriving DecidableEq, Repr

structure CallTile where
  memberId : String
  kind : TileKind
  userId : String
  deviceId : Option String
  hero : Bool
  hasVideo : Bool
  microphoneMuted : Bool
  speaking : Bool
  handRaisedAtMs : Option ℕ
  handRaisedPosition : Option ℕ
  joinedAtMs : Option ℕ
  connection : ConnectionState
  unableToDecrypt : Option UnableToDecrypt
deriving DecidableEq, Repr

def CallTile.id (t : CallTile) : TileId := ⟨t.memberId, t.kind⟩

structure Tiles where
  remote : List CallTile
  own : Option CallTile
deriving DecidableEq, Repr

structure TileRef where
  id : TileId
  userId : String
  hero : Bool
deriving DecidableEq, Repr

structure TileRoster where
  order : List TileRef
  detail : List CallTile
deriving DecidableEq, Repr

structure LocalState where
  tile : CallTile
  isScreenSharing : Bool
deriving DecidableEq, Repr

structure DetailWindow where
  offset : UInt32
  len : UInt32
  also : List TileId
deriving DecidableEq, Repr

/-- Everything is in the window unless a host says otherwise. -/
def DetailWindow.default : DetailWindow := ⟨0, 4294967295, []⟩

/-- The pointer widths that the call runs on. -/
inductive PointerWidth where
  | bits32
  | bits64
deriving DecidableEq, Repr

namespace PointerWidth

def usizeMax : PointerWidth → ℕ
  | bits32 => 2 ^ 32 - 1
  | bits64 => 2 ^ 64 - 1

/-- What no list is longer than. -/
def isizeMax : PointerWidth → ℕ
  | bits32 => 2 ^ 31 - 1
  | bits64 => 2 ^ 63 - 1

def saturatingAdd (width : PointerWidth) (x y : ℕ) : ℕ := min (x + y) width.usizeMax

end PointerWidth

def stream (p : Participant) (kind : MediaStreamKind) : Option StreamState :=
  p.streams.find? (·.kind == kind)

def tile (p : Participant) (kind : TileKind) (speaking : List String) : CallTile :=
  { memberId := p.memberId
    kind := kind
    userId := p.userId
    deviceId := p.deviceId
    hero := kind == .screenShare
    hasVideo := (stream p kind.videoStream).any fun s => !s.muted
    microphoneMuted := (stream p .microphone).all (·.muted)
    speaking := speaking.contains p.memberId
    handRaisedAtMs := p.handRaisedAtMs
    handRaisedPosition := p.handRaisedPosition
    joinedAtMs := p.joinedAtMs
    connection := p.connection
    unableToDecrypt := p.unableToDecrypt }

/-- A missing time sorts last. -/
def noneLast (v : Option ℕ) : Bool ×ₗ ℕ := toLex (v.isNone, v.getD 0)

/-- The type of the keys: hero, raised hand, speaking, video, join time, member id, kind. -/
abbrev RankKey : Type :=
  Boolᵒᵈ ×ₗ (Bool ×ₗ ℕ) ×ₗ Boolᵒᵈ ×ₗ Boolᵒᵈ ×ₗ (Bool ×ₗ ℕ) ×ₗ String ×ₗ ℕ

/-- The last of the key: a person goes before the screen it shares. -/
def kindRank : TileKind → ℕ
  | .screenShare => 1
  | .person => 0

def rankKey (t : CallTile) (byActivity rankedSpeaking : Bool) : RankKey :=
  toLex (OrderDual.toDual t.hero,
    toLex (noneLast (t.handRaisedAtMs.filter fun _ => byActivity),
      toLex (OrderDual.toDual (byActivity && rankedSpeaking),
        toLex (OrderDual.toDual (byActivity && t.hasVideo),
          toLex (noneLast t.joinedAtMs, toLex (t.memberId, kindRank t.kind))))))

/-- What one participant adds to the tiles, in the order of the roster. -/
def addTiles (speaking : List String) (tiles : Tiles) (p : Participant) : Tiles :=
  let camera := tile p .person speaking
  if p.isLocal then { tiles with own := some camera }
  else
    let remote := tiles.remote ++ [camera]
    if (stream p .screenShare).isSome then
      { tiles with remote := remote ++ [tile p .screenShare speaking] }
    else { tiles with remote := remote }

/-- Whether there are so many remote tiles that what members do moves them. -/
def byActivity (remote : List CallTile) (rankingThreshold : UInt32) : Bool :=
  rankingThreshold.toNat < remote.length

def deriveTiles (roster : List Participant) (speaking rankedSpeaking : List String)
    (rankingThreshold : UInt32) : Tiles :=
  let tiles := roster.foldl (addTiles speaking) ⟨[], none⟩
  let active := byActivity tiles.remote rankingThreshold
  { tiles with
    remote := sortByKey (fun t => rankKey t active (rankedSpeaking.contains t.memberId))
      tiles.remote }

/-- One ranked tile goes into the order, and into the detail where the window has it. -/
def windowTile (start last : ℕ) (also : List TileId) (given : TileRoster)
    (ranked : CallTile × ℕ) : TileRoster :=
  let id := ranked.1.id
  let windowed := decide (start ≤ ranked.2 ∧ ranked.2 < last) || also.contains id
  { order := given.order ++ [⟨id, ranked.1.userId, ranked.1.hero⟩]
    detail := if windowed then given.detail ++ [ranked.1] else given.detail }

def window (width : PointerWidth) (ranked : List CallTile) (w : DetailWindow) : TileRoster :=
  let start := w.offset.toNat
  let last := width.saturatingAdd start w.len.toNat
  ranked.zipIdx.foldl (windowTile start last w.also) ⟨[], []⟩

/-- The tiles of a remote participant. -/
def tilesOf (speaking : List String) (p : Participant) : List CallTile :=
  if p.isLocal then []
  else tile p .person speaking ::
    if (stream p .screenShare).isSome then [tile p .screenShare speaking] else []

theorem addTiles_remote (speaking : List String) (tiles : Tiles) (p : Participant) :
    (addTiles speaking tiles p).remote = tiles.remote ++ tilesOf speaking p := by
  unfold addTiles tilesOf
  extract_lets camera remote
  split_ifs
  · exact (List.append_nil _).symm
  · exact List.append_assoc _ _ _
  · rfl

theorem foldl_addTiles_remote (speaking : List String) (roster : List Participant)
    (tiles : Tiles) :
    (roster.foldl (addTiles speaking) tiles).remote =
      tiles.remote ++ roster.flatMap (tilesOf speaking) := by
  induction roster generalizing tiles with
  | nil => exact (List.append_nil _).symm
  | cons p rest ih =>
      rw [List.foldl_cons, ih, addTiles_remote, List.flatMap_cons, List.append_assoc]

/-- The key that the remote tiles of a roster are sorted by. -/
def keyOf (active : Bool) (rankedSpeaking : List String) (t : CallTile) : RankKey :=
  rankKey t active (rankedSpeaking.contains t.memberId)

theorem deriveTiles_remote (roster : List Participant) (speaking rankedSpeaking : List String)
    (rankingThreshold : UInt32) :
    (deriveTiles roster speaking rankedSpeaking rankingThreshold).remote =
      sortByKey
        (keyOf (byActivity (roster.flatMap (tilesOf speaking)) rankingThreshold) rankedSpeaking)
        (roster.flatMap (tilesOf speaking)) := by
  have gathered := foldl_addTiles_remote speaking roster ⟨[], none⟩
  rw [List.nil_append] at gathered
  rw [deriveTiles]
  simp only [gathered]
  rfl

theorem foldl_windowTile (start last : ℕ) (also : List TileId) (ranked : List (CallTile × ℕ))
    (given : TileRoster) :
    ranked.foldl (windowTile start last also) given =
      { order := given.order ++ ranked.map fun t => ⟨t.1.id, t.1.userId, t.1.hero⟩
        detail := given.detail ++ (ranked.filter fun t =>
          decide (start ≤ t.2 ∧ t.2 < last) || also.contains t.1.id).map Prod.fst } := by
  induction ranked generalizing given with
  | nil => simp
  | cons t rest ih =>
      rw [List.foldl_cons, ih, List.filter_cons, windowTile]
      split_ifs <;> simp_all

end MatrixRtc.CallTiles
