import Famiclone.Cartridge.Image
import Famiclone.Console.Battery
import Famiclone.Main
import Famiclone.Processor.Bench
import Famiclone.Storage.Directory
import Famiclone.Storage.Memory
import Famiclone.Proofs.Picture.Dot
import Famiclone.Proofs.Processor.Course
import Famiclone.Proofs.Console.Clocks
import Famiclone.Proofs.Console.Calls
import Famiclone.Proofs.Console.PhaseLock
import Famiclone.Proofs.Picture.Pipeline
import Famiclone.Proofs.Picture.TileMap
import Famiclone.Proofs.Picture.Run
import Famiclone.Proofs.Picture.Tracking
import Famiclone.Proofs.Board.RiseFilter
import Famiclone.Proofs.Picture.Levels
import Famiclone.Proofs.Board.LineCounter
import Famiclone.Proofs.Board.Course
import Famiclone.Proofs.Board.Windows
import Famiclone.Proofs.Console.Playing
import Famiclone.Proofs.Board.View
import Famiclone.Proofs.Board.PowerCycle
import Famiclone.Proofs.Board.WorkRam
import Famiclone.Proofs.Console.StartUp
import Famiclone.Proofs.Console.PowerCycle
import Famiclone.Proofs.Processor.Timing
import Famiclone.Proofs.Processor.Edges
import Famiclone.Proofs.Console.Transfers
import Famiclone.Proofs.Picture.FrameEnd
import Famiclone.Proofs.Console.Travel
import Famiclone.Proofs.Console.FrameLoop
import Famiclone.Proofs.Picture.Scene
import Famiclone.Proofs.Picture.SpriteDots
import Famiclone.Proofs.Picture.SpriteTracking
import Famiclone.Proofs.Picture.WholeFrame
import Famiclone.Proofs.Board.LastBank
import Famiclone.Proofs.Picture.Events
import Famiclone.Proofs.Picture.Vblank
import Famiclone.Proofs.Processor.Unseen
import Famiclone.Proofs.Console.Muted
import Famiclone.Proofs.Cartridge.Acceptance
import Famiclone.Proofs.Picture.Checked
import Famiclone.Proofs.Picture.CheckedSprites
import Famiclone.Proofs.Picture.CheckedDot
import Famiclone.Proofs.Picture.Ranges
import Famiclone.Proofs.Json.Spelling
import Famiclone.Proofs.Json.Reading
import Famiclone.Proofs.Json.Numbers
import Famiclone.Proofs.Json.Records
import Famiclone.Proofs.Settings.RoundTrip
import Famiclone.Proofs.Cartridge.Program
import Famiclone.Proofs.Console.Feed
import Famiclone.Proofs.Console.Follow
import Famiclone.Proofs.Console.Samples
import Famiclone.Proofs.Board.Bounds
import Famiclone.Proofs.Console.Configuration
import Famiclone.Proofs.Console.LateSample
import Famiclone.Proofs.Storage.Agreement
import Famiclone.Proofs.Sound.Ranges
import Famiclone.Proofs.Processor.Duration
import Famiclone.Proofs.Histories
import Famiclone.Proofs.Console.SavedMemory
import Famiclone.Proofs.Picture.Light
import Famiclone.Proofs.Processor.Polling
import Famiclone.Proofs.Console.ResetRequests
import Famiclone.Proofs.Console.HeaderText
import Famiclone.Proofs.Port.Strobe
import Famiclone.Proofs.Board.Switches
import Famiclone.Proofs.Board.PatternRam
import Famiclone.Proofs.Console.SerialWrites
import Famiclone.Proofs.Board.MemoryMap
import Famiclone.Proofs.Board.Countdown
import Famiclone.Proofs.Picture.Timekeeping
import Famiclone.Proofs.Sound.Schedule
import Famiclone.Proofs.Sound.Playback
import Famiclone.Proofs.Console.SpriteTransfer
import Famiclone.Proofs.Picture.DataPort
import Famiclone.Proofs.Processor.Compounds
import Famiclone.Proofs.Processor.Returns
import Famiclone.Proofs.Processor.Strictness
import Famiclone.Proofs.Board.BankSizes
import Famiclone.Proofs.Cartridge.Contents
import Famiclone.Proofs.Sound.Notes
