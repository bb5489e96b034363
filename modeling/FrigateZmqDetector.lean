import FrigateZmqDetector.Availability
import FrigateZmqDetector.Lib.Binary32
import FrigateZmqDetector.Lib.Effect
import FrigateZmqDetector.Lib.Machine
import FrigateZmqDetector.Lib.Stamp
import FrigateZmqDetector.Protocol.FirstModel
import FrigateZmqDetector.Protocol.Panics
import FrigateZmqDetector.Protocol.Stateless
import FrigateZmqDetector.Protocol.Transfers
import FrigateZmqDetector.Protocol.Truthful
import FrigateZmqDetector.Supervisor
import FrigateZmqDetector.Tflite.Table
import FrigateZmqDetector.Watchdog.Detection
import FrigateZmqDetector.Watchdog.Latch
import FrigateZmqDetector.Watchdog.Race
import FrigateZmqDetector.Watchdog.Stall
import FrigateZmqDetector.Watchdog.Wakeup
import FrigateZmqDetector.Worker.Agreement
import FrigateZmqDetector.Worker.Backoff
import FrigateZmqDetector.Worker.Deadlines
import FrigateZmqDetector.Worker.ExitCodes
import FrigateZmqDetector.Worker.Failures
import FrigateZmqDetector.Worker.Liveness
import FrigateZmqDetector.Worker.Ownership
import FrigateZmqDetector.Worker.Stats
import FrigateZmqDetector.Worker.Warmup
