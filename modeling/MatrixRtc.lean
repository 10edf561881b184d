import MatrixRtc.StepRuns
import MatrixRtc.ListPlaces
import MatrixRtc.JsonValues
import MatrixRtc.HostAnswers
import MatrixRtc.MemberEvents
import MatrixRtc.EncryptionManagers
import MatrixRtc.KeyRollout
import MatrixRtc.DistributionRuns
import MatrixRtc.SequentialRollouts
import MatrixRtc.KeyHistory
import MatrixRtc.OwedKeys
import MatrixRtc.InboundKeys
import MatrixRtc.KeyProvenance
import MatrixRtc.KeyAcceptance
import MatrixRtc.RoomSlots
import MatrixRtc.SlotSessions
import MatrixRtc.BaseRooms
import MatrixRtc.StickyBatches
import MatrixRtc.MemberContents
import MatrixRtc.MemberIngest
import MatrixRtc.RoomFeeder
import MatrixRtc.EncryptedRooms
import MatrixRtc.Outboxes
import MatrixRtc.OwnMembership
import MatrixRtc.MembershipUpkeep
import MatrixRtc.OperationSegments
import MatrixRtc.UpkeepInvariants
import MatrixRtc.LeaveOrder
import MatrixRtc.SendOrigins
import MatrixRtc.LapseSignals
import MatrixRtc.DelayedLeaveRecord
import MatrixRtc.DelayedLeaves
import MatrixRtc.SendSlots
import MatrixRtc.SlotOwnership
import MatrixRtc.RequestCoalescing
import MatrixRtc.OwnKeySignals
import MatrixRtc.SignalHistory
import MatrixRtc.MintedKeys
import MatrixRtc.SwitchDelays
import MatrixRtc.MediaKeyHandlers
import MatrixRtc.RotationEffects
import MatrixRtc.SenderOrder
import MatrixRtc.SenderAdoption
import MatrixRtc.TrackMutes
import MatrixRtc.LocalKeyIndices
import MatrixRtc.KeyIdentities
import MatrixRtc.PublishedLifetimes
import MatrixRtc.StickyExpiry
import MatrixRtc.SessionOperations
import MatrixRtc.CandidateKeys
import MatrixRtc.DelayedLeaveHolds
import MatrixRtc.RoomFacts
import MatrixRtc.SeedingOrder
import MatrixRtc.RoomStateMembers
import MatrixRtc.SessionInvariants
import MatrixRtc.StatedLifetimes
import MatrixRtc.UpkeepPolling
import MatrixRtc.RecoveryDecisions
import MatrixRtc.LeaveFinality
import MatrixRtc.DeliveryRecords
import MatrixRtc.MeantLeaves
import MatrixRtc.FailedJoins
import MatrixRtc.DialectHolds
import MatrixRtc.RoomStateDialects
import MatrixRtc.SlotRouting
import MatrixRtc.RoomStateRoundTrip
import MatrixRtc.LegacyKeyMessages
import MatrixRtc.RoomOpenings
import MatrixRtc.Tables
import MatrixRtc.MediaTransports
import MatrixRtc.MediaPools
import MatrixRtc.PoolMoves
import MatrixRtc.PoolSteps
import MatrixRtc.PoolMembers
import MatrixRtc.OwnMedia
import MatrixRtc.PoolAttribution
import MatrixRtc.PoolCarriage
import MatrixRtc.CarriedCalls
import MatrixRtc.PoolStreams
import MatrixRtc.MergedUsers
import MatrixRtc.LocalPublications
import MatrixRtc.CarriedPublications
import MatrixRtc.DirectCalls
import MatrixRtc.DirectLifecycles
import MatrixRtc.PoolTasks
import MatrixRtc.PoolFrames
import MatrixRtc.OwnFocus
import MatrixRtc.OwnFocusMoves
import MatrixRtc.TaskSteps
import MatrixRtc.OwnLosses
import MatrixRtc.PoolConnects
import MatrixRtc.ConnectResults
import MatrixRtc.OwnAttempts
import MatrixRtc.HostRosters
import MatrixRtc.CallEngines
import MatrixRtc.EngineStreams
import MatrixRtc.PoolSignals
import MatrixRtc.PlacedMedia
import MatrixRtc.LateMembers
import MatrixRtc.EngineSnapshots
import MatrixRtc.RosterEvents
import MatrixRtc.RosterMembers
import MatrixRtc.SessionEnds
import MatrixRtc.CallStatuses
import MatrixRtc.CallEnds
import MatrixRtc.JoinedContents
import MatrixRtc.RoomStateFoci
import MatrixRtc.RefreshedMembers
import MatrixRtc.TimedSends
import MatrixRtc.SendDeadlines
import MatrixRtc.LiveKitTargets
import MatrixRtc.PublishedFoci
import MatrixRtc.FocusTokens
import MatrixRtc.OwnStreams
import MatrixRtc.PoolConstraints
import MatrixRtc.StreamConstraints
import MatrixRtc.KeySorts
import MatrixRtc.CallTiles
import MatrixRtc.TileRanks
import MatrixRtc.SpeakerTimers
import MatrixRtc.RaisedHands
import MatrixRtc.TileActors
import MatrixRtc.TileOrders
import MatrixRtc.RunningMerges
import MatrixRtc.CallRooms
import MatrixRtc.HandOrder
import MatrixRtc.UserIsolation
import MatrixRtc.ReactionSends
import MatrixRtc.Base64
import MatrixRtc.InboundStores
import MatrixRtc.KeyWire
import MatrixRtc.InboundHistory
import MatrixRtc.RotationRates
import MatrixRtc.PoolImpairments
import MatrixRtc.PoolUpkeep
import MatrixRtc.PoolProgress
import MatrixRtc.CallIntents
import MatrixRtc.HandSenders
import MatrixRtc.KeyProviders
import MatrixRtc.JoinTransports
import MatrixRtc.SlotContents
import MatrixRtc.FedSlots
import MatrixRtc.PublishedSlots
import MatrixRtc.RoomSubscriptions
import MatrixRtc.ActorViews
